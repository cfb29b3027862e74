import Zutils.Net.WatchersSpec

/-!
# What watchers watch for

What clients ask for is at most one registration for each watcher: a descriptor, the kinds, a delegate, and whether it
is armed, which one that is not persistent is until it has been notified once. A call of `WatchFileDescriptor` joins
the kinds to those that are watched for already, and `StopWatchingFileDescriptor` ends the registration; a notification
is of a registration that is armed, for kinds that it has, and behind a callback for writing the one for reading comes
only if the watcher is still registered (`Registers`).

The pump does just this as long as no call of `WatchFileDescriptor` fails for a watcher that watches already
(`refines_registrations`): such a call ends the registration but leaves `watcher_`, which then may still be called for
reading.
-/

namespace Zutils.Net

open Zutils.Lib

/-! ### The specification -/

/-- What a watcher watches for. -/
structure Registration where
  fd : ℕ
  mask : IoMask
  persist : Bool
  delegate : ℕ
  armed : Bool

/-- The registrations of the watchers, the notifications under way, and what has been called. -/
structure Registrations where
  registration : ℕ → Option Registration
  notifications : List Notification
  calls : List WatcherCall

namespace Registrations

def new : Registrations := ⟨fun _ => none, [], []⟩

variable (r : Registrations)

def set (c : ℕ) (o : Option Registration) : Registrations :=
  { r with registration := Function.update r.registration c o }

/-- The registration of `c` with more kinds. -/
def joined (c fd : ℕ) (persistent : Bool) (mode : WatchMode) (delegate : ℕ) : Registration where
  fd := fd
  mask := IoMask.union ((r.registration c).elim (fun _ => false) Registration.mask) mode.mask
  persist := persistent || (r.registration c).elim false Registration.persist
  delegate := delegate
  armed := true

/-- The delegate is called, in a notification. -/
def call (c delegate fd : ℕ) (kind : IoKind) (readNext : Bool) : Registrations :=
  { r with notifications := ⟨c, fd, readNext⟩ :: r.notifications, calls := r.calls ++ [⟨delegate, fd, kind⟩] }

end Registrations

/-- **What each step does to the registrations.** -/
inductive Registers : Registrations → WatchEvent → Registrations → Prop
  | create {r : Registrations} : Registers r .create r
  | watch {r : Registrations} {c fd : ℕ} {persistent : Bool} {mode : WatchMode} {delegate : ℕ} {delOk addOk : Bool}
      (hfd : ∀ reg, r.registration c = some reg → reg.fd = fd) :
      Registers r (.watch c fd persistent mode delegate delOk addOk)
        (r.set c (some (r.joined c fd persistent mode delegate)))
  | refuse {r : Registrations} {c fd : ℕ} {persistent : Bool} {mode : WatchMode} {delegate : ℕ} {delOk addOk : Bool}
      (hnone : r.registration c = none) : Registers r (.watch c fd persistent mode delegate delOk addOk) r
  | stop {r : Registrations} {c : ℕ} {ok : Bool} : Registers r (.stop c ok) (r.set c none)
  | destroy {r : Registrations} {c : ℕ} {ok : Bool} : Registers r (.destroy c ok) (r.set c none)
  | report {r : Registrations} {fd : ℕ} {what : IoMask} : Registers r (.report fd what) r
  | notify {r : Registrations} {c : ℕ} {reg : Registration} {flags : IoMask} {ok : Bool}
      (hreg : r.registration c = some reg) (harmed : reg.armed = true) (hany : flags.any = true)
      (hflags : ∀ k, flags k = true → reg.mask k = true) :
      Registers r (.processActive ok) ((r.set c (some { reg with armed := reg.persist })).call c reg.delegate reg.fd
        (if flags .write then .write else .read) (flags .write && flags .read))
  | returns {r : Registrations} {n : Notification} {rest : List Notification} (hn : r.notifications = n :: rest)
      (hend : n.readNext = false ∨ r.registration n.controller = none) :
      Registers r .callbackReturns { r with notifications := rest }
  | readNext {r : Registrations} {n : Notification} {rest : List Notification} {reg : Registration}
      (hn : r.notifications = n :: rest) (hread : n.readNext = true) (hreg : r.registration n.controller = some reg) :
      Registers r .callbackReturns ({ r with notifications := rest }.call n.controller reg.delegate n.fd .read false)

/-! ### The pump refines it -/

namespace Watchers

variable {s t : Watchers} {c e : ℕ} {w : FileDescriptorWatcher} {ev : Event} {d : ℕ}

/-- The registration of a watcher, as its event has it. -/
def registrationOf (s : Watchers) (c : ℕ) : Option Registration :=
  (s.controllers c).bind fun w => w.event.bind fun e => (s.base.events e).bind fun ev =>
    w.watcher.map fun d => ⟨ev.fd, ev.mask, ev.persist, d, ev.inserted⟩

def registrations (s : Watchers) : Registrations := ⟨s.registrationOf, s.notifications, s.calls⟩

lemma registrationOf_eq (hc : s.controllers c = some w) (he : w.event = some e) (hev : s.base.events e = some ev)
    (hd : w.watcher = some d) : s.registrationOf c = some ⟨ev.fd, ev.mask, ev.persist, d, ev.inserted⟩ := by
  simp [registrationOf, hc, he, hev, hd]

lemma registrationOf_none (h : ∀ w, s.controllers c = some w → w.event = none) : s.registrationOf c = none := by
  cases hc : s.controllers c with
  | none => simp [registrationOf, hc]
  | some w => simp [registrationOf, hc, h w hc]

lemma registrationOf_eq_some {reg : Registration} : s.registrationOf c = some reg ↔ ∃ w e ev d, s.controllers c = some w ∧
    w.event = some e ∧ s.base.events e = some ev ∧ w.watcher = some d ∧
    reg = ⟨ev.fd, ev.mask, ev.persist, d, ev.inserted⟩ := by
  constructor
  · intro h
    obtain ⟨w, hc, h⟩ := Option.bind_eq_some_iff.1 h
    obtain ⟨e, he, h⟩ := Option.bind_eq_some_iff.1 h
    obtain ⟨ev, hev, h⟩ := Option.bind_eq_some_iff.1 h
    obtain ⟨d, hd, h⟩ := Option.map_eq_some_iff.1 h
    exact ⟨w, e, ev, d, hc, he, hev, hd, h.symm⟩
  · rintro ⟨w, e, ev, d, hc, he, hev, hd, rfl⟩
    exact registrationOf_eq hc he hev hd

lemma Sound.registrationOf_of_ne (h : s.Sound) (hc : s.controllers c = some w)
    (hold : w.event = some e ∨ e = s.nextEvent ∧ w.event = none) {o : Option Event}
    (hevents : t.base.events = Function.update s.base.events e o) {o' : Option FileDescriptorWatcher}
    (hcontrollers : t.controllers = Function.update s.controllers c o') {c' : ℕ} (hne : c' ≠ c) :
    t.registrationOf c' = s.registrationOf c' := by
  unfold registrationOf
  rw [hcontrollers, Function.update_of_ne hne]
  cases hc' : s.controllers c' with
  | none => rfl
  | some w' =>
    cases he' : w'.event with
    | none => simp [he']
    | some e' =>
      have hother : e' ≠ e := by
        rintro rfl
        exact h.alone hc hold c' w' hne hc' he'
      simp [he', hevents, Function.update_of_ne hother]

lemma Sound.registrations_change (h : s.Sound) (hc : s.controllers c = some w)
    (hold : w.event = some e ∨ e = s.nextEvent ∧ w.event = none) {o : Option Event}
    (hevents : t.base.events = Function.update s.base.events e o) {o' : Option FileDescriptorWatcher}
    (hcontrollers : t.controllers = Function.update s.controllers c o') :
    t.registrationOf = Function.update s.registrationOf c (t.registrationOf c) := by
  funext c'
  by_cases hne : c' = c
  · subst hne
    rw [Function.update_self]
  · rw [Function.update_of_ne hne]
    exact h.registrationOf_of_ne hc hold hevents hcontrollers hne

/-- The registrations do not depend on what is active. -/
lemma registrationOf_keeps {base : EventBase} (hkeeps : s.base.Keeps base) :
    { s with base := base }.registrationOf = s.registrationOf := by
  funext c
  unfold registrationOf
  dsimp only
  congr 1
  funext w
  congr 1
  funext e
  have hinfo := congrArg (Option.map fun i : ℕ × IoMask × Bool × ℕ × Bool => (i.1, i.2.1, i.2.2.1, i.2.2.2.2))
    (hkeeps.info e)
  rw [Option.map_map, Option.map_map] at hinfo
  cases hnew : base.events e with
  | none =>
    rw [hnew, Option.map_none] at hinfo
    rw [Option.map_eq_none_iff.1 hinfo.symm]
  | some ev =>
    rw [hnew, Option.map_some] at hinfo
    obtain ⟨ev', hold, hsame⟩ := Option.map_eq_some_iff.1 hinfo.symm
    simp only [Function.comp_apply, EventBase.info, Prod.mk.injEq] at hsame
    obtain ⟨hfd, hmask, hpersist, hins⟩ := hsame
    rw [hold, Option.bind_some, Option.bind_some, hfd, hmask, hpersist, hins]

lemma Sound.registrationOf_create (h : s.Sound) : s.create.registrationOf = s.registrationOf := by
  funext c
  unfold registrationOf
  show (Function.update s.controllers s.nextController (some ⟨none, none⟩) c).bind _ = _
  by_cases hne : c = s.nextController
  · rw [hne, Function.update_self, h.freshController _ (Nat.le_refl _)]
    rfl
  · rw [Function.update_of_ne hne]
    rfl

lemma Sound.registrationOf_lost (h : s.Sound) (hc : s.controllers c = some w)
    (hold : w.event = some e ∨ e = s.nextEvent ∧ w.event = none)
    (hevents : t.base.events = Function.update s.base.events e none) {o : Option FileDescriptorWatcher}
    (hcontrollers : t.controllers = Function.update s.controllers c o) (ho : ∀ w', o = some w' → w'.event = none) :
    t.registrationOf = Function.update s.registrationOf c none := by
  rw [h.registrations_change hc hold hevents hcontrollers]
  congr 1
  refine registrationOf_none fun w' hw' => ho w' ?_
  rwa [hcontrollers, Function.update_self] at hw'

lemma Sound.registrationOf_armed (h : s.Sound) (hc : s.controllers c = some w)
    (hold : w.event = some e ∨ e = s.nextEvent ∧ w.event = none) (fd : ℕ) (mask : IoMask) (persist : Bool) (delegate : ℕ)
    (hevents : t.base.events =
      Function.update s.base.events e (some { Event.set fd mask persist c with inserted := true }))
    (hcontrollers : t.controllers = Function.update s.controllers c (some ⟨some e, some delegate⟩)) :
    t.registrationOf = Function.update s.registrationOf c (some ⟨fd, mask, persist, delegate, true⟩) := by
  rw [h.registrations_change hc hold hevents hcontrollers]
  congr 1
  have hw : t.controllers c = some ⟨some e, some delegate⟩ := by rw [hcontrollers, Function.update_self]
  have hev : t.base.events e = some { Event.set fd mask persist c with inserted := true } := by
    rw [hevents, Function.update_self]
  exact registrationOf_eq hw rfl hev rfl

lemma registrations_eq (hreg : t.registrationOf = s.registrationOf) (hnotif : t.notifications = s.notifications)
    (hcalls : t.calls = s.calls) : t.registrations = s.registrations := by
  rw [registrations, registrations, hreg, hnotif, hcalls]

lemma registrations_set {o : Option Registration} (hreg : t.registrationOf = Function.update s.registrationOf c o)
    (hnotif : t.notifications = s.notifications) (hcalls : t.calls = s.calls) :
    t.registrations = s.registrations.set c o := by
  rw [registrations, hreg, hnotif, hcalls]
  rfl

/-- Who has a delegate has an event. -/
def Attached (s : Watchers) : Prop := ∀ c w, s.controllers c = some w → w.event = none → w.watcher = none

end Watchers

/-- No call of `WatchFileDescriptor` fails for a watcher that has an event. -/
def WatchEvent.Joins : WatchEvent → Watchers → Prop
  | watch c fd persistent mode delegate delOk addOk, s => ∀ w, s.controllers c = some w → w.event.isSome = true →
    (s.watchFileDescriptor fd persistent mode c w delegate delOk addOk).1 = true
  | _, _ => True

/-- The steps without such calls. -/
def WatchesJoining (s : Watchers) (e : WatchEvent) (t : Watchers) : Prop := Watches s e t ∧ e.Joins s

namespace Watchers

variable {s t : Watchers} {c e : ℕ} {w : FileDescriptorWatcher} {ev : Event} {d : ℕ}

lemma attached_update (h : s.Attached) {o : Option FileDescriptorWatcher}
    (hcontrollers : t.controllers = Function.update s.controllers c o)
    (ho : ∀ w, o = some w → w.event = none → w.watcher = none) : t.Attached := by
  intro c' w' hc' he'
  rw [hcontrollers] at hc'
  by_cases hne : c' = c
  · subst hne
    rw [Function.update_self] at hc'
    exact ho w' hc' he'
  · rw [Function.update_of_ne hne] at hc'
    exact h c' w' hc' he'

lemma Sound.registers_armed (h : s.Sound) (hattached : s.Attached) (hc : s.controllers c = some w)
    (hold : w.event = some e ∨ e = s.nextEvent ∧ w.event = none) {fd : ℕ} {mask : IoMask} {persist persistent : Bool}
    {mode : WatchMode} {delegate : ℕ}
    (hjoined : s.registrations.joined c fd persistent mode delegate = ⟨fd, mask, persist, delegate, true⟩)
    (hfd : ∀ reg, s.registrationOf c = some reg → reg.fd = fd)
    (hevents : t.base.events =
      Function.update s.base.events e (some { Event.set fd mask persist c with inserted := true }))
    (hcontrollers : t.controllers = Function.update s.controllers c (some ⟨some e, some delegate⟩))
    (hnotif : t.notifications = s.notifications) (hcalls : t.calls = s.calls) (delOk addOk : Bool) :
    t.Attached ∧ Registers s.registrations (.watch c fd persistent mode delegate delOk addOk) t.registrations := by
  refine ⟨attached_update hattached hcontrollers fun w' hw' hnot => ?_, ?_⟩
  · rw [← Option.some.inj hw'] at hnot
    cases hnot
  · have hreg := h.registrationOf_armed hc hold fd mask persist delegate hevents hcontrollers
    rw [registrations_set hreg hnotif hcalls, ← hjoined]
    exact .watch hfd

/-- **A call of `WatchFileDescriptor`** joins the kinds, or is refused when there are none yet. -/
lemma Sound.registers_watch (h : s.Sound) (hattached : s.Attached) (hc : s.controllers c = some w) (fd : ℕ)
    (persistent : Bool) (mode : WatchMode) (delegate : ℕ) (delOk addOk : Bool)
    (hjoins : w.event.isSome = true → (s.watchFileDescriptor fd persistent mode c w delegate delOk addOk).1 = true) :
    (s.watchFileDescriptor fd persistent mode c w delegate delOk addOk).2.Attached ∧
      Registers s.registrations (.watch c fd persistent mode delegate delOk addOk)
        (s.watchFileDescriptor fd persistent mode c w delegate delOk addOk).2.registrations := by
  cases he : w.event with
  | none =>
    have hnone : s.registrationOf c = none := registrationOf_none fun w' hw' => by
      obtain rfl := Option.some.inj (hc.symm.trans hw')
      exact he
    have hidle : ∀ ev, s.base.events s.nextEvent = some ev → ev.inserted = false := fun ev hev => by
      rw [h.freshEvent _ (Nat.le_refl _)] at hev
      cases hev
    rw [watchFileDescriptor, he]
    dsimp only
    generalize hr : Watchers.arm _ w c s.nextEvent (Event.set fd mode.mask persistent c) delegate addOk = r
    obtain ⟨-, ⟨-, hrefused⟩ | ⟨-, hevents, hentered⟩⟩ := h.arm hc (.inr ⟨rfl, he⟩) h.base (fun _ _ => rfl) hidle
      (Nat.le_succ _) (Nat.lt_succ_self _) fd mode.mask persistent delegate addOk hr
    · have hcontrollers : r.2.controllers = Function.update s.controllers c (some { w with event := none }) := by
        rw [hrefused]
      have hevents : r.2.base.events = Function.update s.base.events s.nextEvent none := by
        rw [hrefused]
        exact Function.update_idem ..
      have hlost := h.registrationOf_lost hc (.inr ⟨rfl, he⟩) hevents hcontrollers fun w' hw' =>
        Option.some.inj hw' ▸ rfl
      rw [← hnone, Function.update_eq_self] at hlost
      refine ⟨attached_update hattached hcontrollers fun w' hw' _ => ?_, ?_⟩
      · rw [← Option.some.inj hw']
        exact hattached c w hc he
      · rw [registrations_eq hlost (by rw [hrefused]) (by rw [hrefused])]
        exact .refuse hnone
    · have hjoined : s.registrations.joined c fd persistent mode delegate =
          ⟨fd, mode.mask, persistent, delegate, true⟩ := by
        simp only [Registrations.joined, registrations, hnone, Option.elim_none, Bool.or_false, Registration.mk.injEq,
          and_true, true_and]
        funext k
        rfl
      refine h.registers_armed hattached hc (.inr ⟨rfl, he⟩) hjoined (fun reg hreg => ?_) hevents (by rw [hentered])
        (by rw [hentered]) (by rw [hentered]) delOk addOk
      rw [hnone] at hreg
      cases hreg
  | some e =>
    obtain ⟨⟨ev, hev, -⟩, d, hd⟩ := h.owns c w e hc he
    obtain ⟨hok, hevents⟩ := h.base.eventDel hev delOk
    have hold : s.registrationOf c = some ⟨ev.fd, ev.mask, ev.persist, d, ev.inserted⟩ := registrationOf_eq hc he hev hd
    have hsucc := hjoins (by rw [he]; rfl)
    rw [watchFileDescriptor, he] at hsucc ⊢
    dsimp only at hsucc ⊢
    rw [hev] at hsucc ⊢
    dsimp only at hsucc ⊢
    split at hsucc
    · cases hsucc
    rename_i hfd
    rw [if_neg hfd]
    generalize hr : Watchers.arm _ w c e (Event.set fd (ev.mask.union mode.mask) (persistent || ev.persist) c) delegate
      addOk = r at hsucc ⊢
    obtain ⟨-, ⟨hfail, -⟩ | ⟨-, hevents', hentered⟩⟩ := h.arm hc (.inl he) hok
      (fun e' hne => by rw [hevents, Function.update_of_ne hne])
      (fun ev' hev' => by
        rw [hevents, Function.update_self] at hev'
        exact Option.some.inj hev' ▸ rfl)
      (Nat.le_refl _) (h.event_lt hev) fd _ _ delegate addOk hr
    · rw [hfail] at hsucc
      cases hsucc
    · have hjoined : s.registrations.joined c fd persistent mode delegate =
          ⟨fd, ev.mask.union mode.mask, persistent || ev.persist, delegate, true⟩ := by
        simp only [Registrations.joined, registrations, hold, Option.elim_some]
      refine h.registers_armed hattached hc (.inl he) hjoined (fun reg hreg => ?_) hevents' (by rw [hentered])
        (by rw [hentered]) (by rw [hentered]) delOk addOk
      rw [hold] at hreg
      rw [← Option.some.inj hreg]
      exact Decidable.not_not.1 hfd

/-- A watcher without an event ends nothing. -/
lemma registrations_set_none (hc : s.controllers c = some w) (he : w.event = none) :
    s.registrations.set c none = s.registrations := by
  have hnone : s.registrationOf c = none := registrationOf_none fun w' hw' => by
    obtain rfl := Option.some.inj (hc.symm.trans hw')
    exact he
  have hsame : Function.update s.registrationOf c none = s.registrationOf := by
    rw [← hnone, Function.update_eq_self]
  exact (registrations_set (t := s) hsame.symm rfl rfl).symm

lemma Sound.events_release (h : s.Sound) (hc : s.controllers c = some w) (he : w.event = some e) (ok : Bool) :
    ((s.base.eventDel e ok).2.free e).events = Function.update s.base.events e none := by
  obtain ⟨⟨ev, hev, -⟩, -⟩ := h.owns c w e hc he
  rw [EventBase.free, (h.base.eventDel hev ok).2, Function.update_idem]

lemma Sound.registers_stop (h : s.Sound) (hattached : s.Attached) (hc : s.controllers c = some w) (ok : Bool) :
    (s.stopWatchingFileDescriptor c w ok).2.Attached ∧
      Registers s.registrations (.stop c ok) (s.stopWatchingFileDescriptor c w ok).2.registrations := by
  rw [stopWatchingFileDescriptor]
  cases he : w.event with
  | none =>
    have hsame := registrations_set_none hc he
    refine ⟨hattached, ?_⟩
    show Registers _ _ s.registrations
    nth_rewrite 2 [← hsame]
    exact .stop
  | some e =>
    dsimp only
    refine ⟨attached_update hattached rfl fun w' hw' _ => Option.some.inj hw' ▸ rfl, ?_⟩
    have hlost := h.registrationOf_lost
      (t := { s with base := (s.base.eventDel e ok).2.free e }.setController c ⟨none, none⟩) hc (.inl he)
      (h.events_release hc he ok) rfl fun w' hw' => Option.some.inj hw' ▸ rfl
    rw [registrations_set hlost rfl rfl]
    exact .stop

lemma Sound.registers_destroy (h : s.Sound) (hattached : s.Attached) (hc : s.controllers c = some w) (ok : Bool) :
    (s.destroy c w ok).Attached ∧ Registers s.registrations (.destroy c ok) (s.destroy c w ok).registrations := by
  rw [Watchers.destroy, stopWatchingFileDescriptor]
  cases he : w.event with
  | none =>
    have hnone := h.freshEvent _ (Nat.le_refl _)
    have hsame : s.base.events = Function.update s.base.events s.nextEvent none := by
      rw [← hnone, Function.update_eq_self]
    dsimp only
    refine ⟨attached_update hattached rfl fun w' hw' _ => (by cases hw'), ?_⟩
    have hlost := h.registrationOf_lost (t := { s with controllers := Function.update s.controllers c none })
      hc (.inr ⟨rfl, he⟩) hsame rfl fun w' hw' => by cases hw'
    rw [registrations_set hlost rfl rfl]
    exact .destroy
  | some e =>
    dsimp only
    have hcontrollers : Function.update (Function.update s.controllers c (some ⟨none, none⟩)) c none =
        Function.update s.controllers c none := Function.update_idem ..
    refine ⟨attached_update hattached hcontrollers fun w' hw' _ => (by cases hw'), ?_⟩
    have hlost := h.registrationOf_lost (t := { s with
        base := (s.base.eventDel e ok).2.free e
        controllers := Function.update (Function.update s.controllers c (some ⟨none, none⟩)) c none })
      hc (.inl he) (h.events_release hc he ok) hcontrollers fun w' hw' => by cases hw'
    rw [setController, registrations_set hlost rfl rfl]
    exact .destroy

/-- **A callback for the next active event** is of a registration that is armed. -/
lemma Sound.registers_processActive (h : s.Sound) (hattached : s.Attached) (hmem : e ∈ s.base.activequeue) (ok : Bool) :
    (s.processActive e ok).Attached ∧
      Registers s.registrations (.processActive ok) (s.processActive e ok).registrations := by
  obtain ⟨ev, w, d, hev, hc, he, hd, hins, hany, hres, hsound, hevents, heq⟩ := h.processActive hmem ok
  rw [heq]
  refine ⟨hattached, ?_⟩
  have hreg : s.registrations.registration ev.arg = some ⟨ev.fd, ev.mask, ev.persist, d, true⟩ := by
    show s.registrationOf ev.arg = _
    rw [registrationOf_eq hc he hev hd, hins]
  have hnew := h.registrations_change (t := { s with base := s.base.popActive e ok }) hc (.inl he) hevents
    (show s.controllers = Function.update s.controllers ev.arg (some w) by rw [← hc, Function.update_eq_self])
  have hself : Watchers.registrationOf { s with base := s.base.popActive e ok } ev.arg =
      some ⟨ev.fd, ev.mask, ev.persist, d, ev.persist⟩ := by
    rw [registrationOf_eq (s := { s with base := s.base.popActive e ok }) hc he (hevents ▸ Function.update_self ..) hd]
  rw [hself] at hnew
  have hset := registrations_set (t := { s with base := s.base.popActive e ok }) hnew rfl rfl
  have hcall : ∀ t : Watchers, (t.call ev.arg d ev.fd (if ev.res .write then .write else .read)
      (ev.res .write && ev.res .read)).registrations = t.registrations.call ev.arg d ev.fd
        (if ev.res .write then .write else .read) (ev.res .write && ev.res .read) := fun _ => rfl
  have hstep : Registers s.registrations (.processActive ok) _ := .notify hreg rfl hany hres
  rw [hcall, hset]
  exact hstep

/-- **Behind a callback** the one for reading comes if the watcher is registered. -/
lemma Sound.registers_callbackReturns (h : s.Sound) (hattached : s.Attached) {n : Notification} {rest : List Notification}
    (hn : s.notifications = n :: rest) : (s.callbackReturns n rest).Attached ∧
      Registers s.registrations .callbackReturns (s.callbackReturns n rest).registrations := by
  have hend : ∀ hnot : n.readNext = false ∨ s.registrationOf n.controller = none,
      Registers s.registrations .callbackReturns (Watchers.registrations { s with notifications := rest }) :=
    fun hnot => .returns hn hnot
  rw [callbackReturns]
  split
  · rename_i hread
    dsimp only
    split
    · rename_i hgone
      exact ⟨hattached, hend (.inr (registrationOf_none fun w hw => by rw [hgone] at hw; cases hw))⟩
    · rename_i w hc
      split
      · rename_i hnone
        refine ⟨hattached, hend (.inr (registrationOf_none fun w' hw' => ?_))⟩
        obtain rfl := Option.some.inj (hc.symm.trans hw')
        by_contra hevent
        obtain ⟨e, he⟩ := Option.ne_none_iff_exists'.1 hevent
        obtain ⟨-, d, hd⟩ := h.owns _ _ e hc he
        rw [hnone] at hd
        cases hd
      · rename_i d hd
        have hevent : w.event ≠ none := fun hnone => by
          rw [hattached _ w hc hnone] at hd
          cases hd
        obtain ⟨e, he⟩ := Option.ne_none_iff_exists'.1 hevent
        obtain ⟨⟨ev, hev, -⟩, -⟩ := h.owns _ w e hc he
        have hreg : s.registrations.registration n.controller = some ⟨ev.fd, ev.mask, ev.persist, d, ev.inserted⟩ :=
          registrationOf_eq hc he hev hd
        have hstep : Registers s.registrations .callbackReturns _ := .readNext hn hread hreg
        exact ⟨hattached, hstep⟩
  · rename_i hread
    exact ⟨hattached, hend (.inl (eq_false_of_ne_true hread))⟩

/-- **Every step** does to the registrations what the specification says. -/
lemma Sound.registers (h : s.Sound) (hattached : s.Attached) {a : WatchEvent} (ha : a.exec s = some t)
    (hjoins : a.Joins s) : t.Attached ∧ Registers s.registrations a t.registrations := by
  cases a with
  | create =>
    obtain rfl := Option.some.inj ha
    refine ⟨attached_update hattached (o := some ⟨none, none⟩) rfl fun w hw _ => Option.some.inj hw ▸ rfl, ?_⟩
    rw [registrations_eq (t := s.create) h.registrationOf_create rfl rfl]
    exact .create
  | watch c fd persistent mode delegate delOk addOk =>
    obtain ⟨w, hc, rfl⟩ := Option.map_eq_some_iff.1 ha
    exact h.registers_watch hattached hc fd persistent mode delegate delOk addOk (hjoins w hc)
  | stop c ok =>
    obtain ⟨w, hc, rfl⟩ := Option.map_eq_some_iff.1 ha
    exact h.registers_stop hattached hc ok
  | destroy c ok =>
    obtain ⟨w, hc, rfl⟩ := Option.map_eq_some_iff.1 ha
    exact h.registers_destroy hattached hc ok
  | report fd what =>
    obtain rfl := Option.some.inj ha
    have hkeeps := registrationOf_keeps (h.base.report fd what).2
    refine ⟨hattached, ?_⟩
    rw [registrations_eq (t := { s with base := s.base.report fd what }) hkeeps rfl rfl]
    exact .report
  | processActive ok =>
    obtain ⟨e, he, rfl⟩ := Option.map_eq_some_iff.1 ha
    exact h.registers_processActive hattached (List.mem_of_mem_head? he) ok
  | callbackReturns =>
    simp only [WatchEvent.exec] at ha
    split at ha
    · cases ha
    · rename_i n rest hn
      obtain rfl := Option.some.inj ha
      exact h.registers_callbackReturns hattached hn

/-- **The pump does what its clients ask for**, in any run in which no call of `WatchFileDescriptor` fails for a watcher
that has an event: the calls of the delegates are those of the registrations. -/
theorem refines_registrations {es : List WatchEvent} (h : Run WatchesJoining new es s) :
    Run Registers .new es s.registrations := by
  have hnew : new.registrations = .new := by
    unfold registrations registrationOf
    rfl
  rw [← hnew]
  refine (h.simulates Registers registrations (fun s => s.Sound ∧ s.Attached) ⟨sound_new, ?_⟩ ?_).2
  · intro c w hc
    cases hc
  · rintro s a t ⟨hsound, hattached⟩ ⟨ha, hjoins⟩
    obtain ⟨hattached', hregisters⟩ := hsound.registers hattached ha hjoins
    exact ⟨⟨hsound.exec ha, hattached'⟩, hregisters⟩

/-- Writing is joined to reading; the callback for reading comes behind the one for writing. -/
theorem refines_registrations_run : ∃ s, Run Registers .new [.create, .watch 0 5 true .watchRead 7 true true,
      .watch 0 5 false .watchWrite 8 true true, .report 5 fun _ => true, .processActive true, .callbackReturns] s ∧
    s.calls = [⟨8, 5, .write⟩, ⟨8, 5, .read⟩] := by
  let first : WatchEvent := .watch 0 5 true .watchRead 7 true true
  let second : WatchEvent := .watch 0 5 false .watchWrite 8 true true
  have h₁ : Run WatchesJoining new [.create] _ := Run.nil.snoc ⟨rfl, trivial⟩
  have h₂ : Run WatchesJoining new [.create, first] _ := h₁.snoc (a := first) ⟨rfl, fun w hw he => by
    obtain rfl := Option.some.inj hw
    cases he⟩
  have h₃ : Run WatchesJoining new [.create, first, second] _ := h₂.snoc (a := second) ⟨rfl, fun w hw _ => by
    obtain rfl := Option.some.inj hw
    rfl⟩
  have h₄ := ((h₃.snoc (a := WatchEvent.report 5 fun _ => true) ⟨rfl, trivial⟩).snoc
    (a := WatchEvent.processActive true) ⟨rfl, trivial⟩).snoc (a := WatchEvent.callbackReturns) ⟨rfl, trivial⟩
  exact ⟨_, refines_registrations h₄, rfl⟩

end Watchers

end Zutils.Net
