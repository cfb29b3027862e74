import Zutils.Net.TcpServer
import Zutils.Lib.Run

/-!
# What a server does after `Create`

The message loops that connections are given to are alive in every run (`created_live`). A `Create` that fails should
have no effect (`Harmless`). It has none if and only if the listening socket is not watched or all threads start
(`create_harmless_iff`): where the socket is watched and a thread does not start, connections are accepted on the
server's own message loop from then on.
-/

namespace Zutils.Net

open Lib

/-! ### The pool -/

namespace ReactorThreadPool

variable {starts : ℕ → Bool} {ts : List ReactorThread} {p : ReactorThreadPool}

lemma startLoop_iff : (startLoop starts ts).1 = true ↔ ∀ t ∈ ts, starts t.reactorId = true := by
  induction ts with
  | nil => exact iff_of_true rfl (by rintro t ⟨⟩)
  | cons t ts ih =>
    rw [startLoop, List.forall_mem_cons, ← ih]
    by_cases ht : starts t.reactorId = true
    · rw [if_pos ht]
      exact ⟨fun h => ⟨ht, h⟩, fun h => h.2⟩
    · rw [if_neg ht]
      exact iff_of_false Bool.false_ne_true fun h => ht h.1

lemma startLoop_started (h : (startLoop starts ts).1 = true) : ∀ t ∈ (startLoop starts ts).2, t.started = true := by
  induction ts with
  | nil => rintro t ⟨⟩
  | cons t ts ih =>
    have hstart := startLoop_iff.1 h
    have hrest : (startLoop starts ts).1 = true := startLoop_iff.2 fun t ht => hstart t (List.mem_cons_of_mem _ ht)
    rw [startLoop, if_pos (hstart t List.mem_cons_self)]
    exact List.forall_mem_cons.2 ⟨rfl, ih hrest⟩

/-- The reactors run, and the index of the next one is in range or just behind. -/
def Running (p : ReactorThreadPool) : Prop :=
  (∀ t ∈ p.reactorPool, t.started = true) ∧ p.nextReactor ≤ p.reactorPool.length

/-- A pool in which a thread does not start is emptied. -/
lemma start_spec (hnext : p.nextReactor = 0) :
    ((p.start starts).1 = true ↔ ∀ t ∈ p.reactorPool, starts t.reactorId = true) ∧ (p.start starts).2.Running ∧
      ((p.start starts).1 = false → (p.start starts).2.reactorPool = []) := by
  refine ⟨startLoop_iff, ?_, ?_⟩
  · rw [start]
    dsimp only
    split
    · rename_i hret
      exact ⟨startLoop_started hret, by dsimp only; omega⟩
    · exact ⟨by rintro t ⟨⟩, by rw [shutdown]; dsimp only; omega⟩
  · intro hret
    have hret' : (startLoop starts p.reactorPool).1 = false := hret
    rw [start]
    dsimp only
    rw [hret']
    rfl

lemma Running.getNextMessageLoop (h : p.Running) (hne : p.isEmpty = false) :
    ∃ t ∈ p.reactorPool, p.getNextMessageLoop.1 = some (.reactor t.reactorId) ∧ p.getNextMessageLoop.2.Running ∧
      p.getNextMessageLoop.2.reactorPool = p.reactorPool := by
  obtain ⟨hstarted, hnext⟩ := h
  have hpos : 0 < p.reactorPool.length := by
    rw [isEmpty, List.isEmpty_eq_false_iff] at hne
    exact List.length_pos_iff.2 hne
  have hlt : (if p.nextReactor = p.reactorPool.length then 0 else p.nextReactor) < p.reactorPool.length := by
    split <;> omega
  rw [isEmpty] at hne
  rw [ReactorThreadPool.getNextMessageLoop, if_neg (Bool.eq_false_iff.1 hne)]
  refine ⟨_, List.getElem_mem hlt, ?_, ⟨hstarted, hlt⟩, rfl⟩
  dsimp only
  rw [List.getElem?_eq_getElem hlt, Option.bind_some, ReactorThread.messageLoop,
    if_pos (hstarted _ (List.getElem_mem hlt))]

end ReactorThreadPool

/-! ### Connections -/

namespace ServerRun

variable {r : ServerRun}

/-- The message loop has not been destroyed. -/
def LoopLive (r : ServerRun) : MessageLoop → Prop
  | .main => True
  | .reactor i => ⟨i, true⟩ ∈ r.server.reactorPool.reactorPool

/-- The acceptor is watched only with reactors that run. -/
def Live (r : ServerRun) : Prop := r.server.acc.watching = true → r.server.reactorPool.Running

/-- What an event keeps, with its effects. -/
structure KeepsLive (r r' : ServerRun) (out : List ServerEffect) : Prop where
  acc : r'.server.acc = r.server.acc
  live : r'.Live
  created : ∀ conn loop, .created conn loop ∈ out → r'.LoopLive loop

lemma Live.onCreateConnection (h : r.Live) (hw : r.server.acc.watching = true) (conn : ℤ) :
    ∃ r' out, r.onCreateConnection conn = .ok (r', out) ∧ KeepsLive r r' out := by
  cases hempty : r.server.reactorPool.isEmpty with
  | true =>
    refine ⟨r, [.created conn .main, .onNewConnection conn], ?_, rfl, h, ?_⟩
    · rw [ServerRun.onCreateConnection, TCPServer.nextMessageLoop, if_pos hempty]
    · intro conn' loop hmem
      rcases List.mem_cons.1 hmem with heq | hmem
      · cases heq
        trivial
      · cases List.mem_singleton.1 hmem
  | false =>
    obtain ⟨t, ht, hloop, hrun, hpool⟩ := (h hw).getNextMessageLoop hempty
    refine ⟨⟨⟨r.server.reactorPool.getNextMessageLoop.2, r.server.acc⟩, r.posted ++ [(conn, .reactor t.reactorId)]⟩,
      [.created conn (.reactor t.reactorId)], ?_, rfl, fun _ => hrun, ?_⟩
    · have hne : ¬ r.server.reactorPool.isEmpty = true := by rw [hempty]; exact Bool.false_ne_true
      rw [ServerRun.onCreateConnection, TCPServer.nextMessageLoop, if_neg hne]
      dsimp only
      rw [hloop]
    · intro conn' loop hmem
      cases List.mem_singleton.1 hmem
      have hstarted : t.started = true := (h hw).1 t ht
      have hmem : (⟨t.reactorId, true⟩ : ReactorThread) ∈ r.server.reactorPool.reactorPool := by
        rw [← hstarted]
        exact ht
      rw [← hpool] at hmem
      exact hmem

/-- **One event**: it does not fail, and connections are given to message loops that are alive. -/
lemma Live.exec (h : r.Live) {e : LoopEvent} (he : r.Enabled e) :
    ∃ r' out, r.exec e = .ok (r', out) ∧ KeepsLive r r' out := by
  have hnone : ∀ effects : List ℤ, ∀ conn loop, .created conn loop ∈ effects.map ServerEffect.accepted →
      r.LoopLive loop := by
    intro effects conn loop hmem
    obtain ⟨c, -, hc⟩ := List.mem_map.1 hmem
    cases hc
  cases e with
  | canRead conn disableNagle =>
    rw [ServerRun.exec, onFileCanRead]
    split
    · cases haccept : accept conn disableNagle with
      | none => exact ⟨r, _, rfl, rfl, h, hnone conn.toList⟩
      | some conn' =>
        obtain ⟨r', out, hout, hacc, hlive, hcreated⟩ := h.onCreateConnection he conn'
        dsimp only
        rw [hout]
        refine ⟨r', _, rfl, hacc, hlive, ?_⟩
        intro c loop hmem
        rcases List.mem_append.1 hmem with hmem | hmem
        · obtain ⟨c, -, hc⟩ := List.mem_map.1 hmem
          cases hc
        · exact hcreated c loop hmem
    · exact ⟨r, [], rfl, rfl, h, by rintro conn loop ⟨⟩⟩
  | runTask =>
    rw [ServerRun.exec]
    split
    · exact ⟨r, [], rfl, rfl, h, by rintro conn loop ⟨⟩⟩
    · refine ⟨_, _, rfl, rfl, h, ?_⟩
      intro c loop hmem
      cases List.mem_singleton.1 hmem

end ServerRun

/-! ### After `Create` -/

/-- No thread that does not start is among the threads of the pool. -/
def AllStart (reactorPoolSize : ℤ) (starts : ℕ → Bool) : Prop := ∀ i : ℕ, i < reactorPoolSize → starts i = true

namespace TCPServer

variable {reactorPoolSize : ℤ} {listening : Option ℤ} {watched : Bool} {starts : ℕ → Bool}

/-- The run of a server after `Create`. -/
def afterCreate (reactorPoolSize : ℤ) (listening : Option ℤ) (watched : Bool) (starts : ℕ → Bool) : ServerRun :=
  ⟨((new reactorPoolSize).create listening watched starts).2, []⟩

lemma new_allStart :
    (∀ t ∈ (ReactorThreadPool.new reactorPoolSize).reactorPool, starts t.reactorId = true) ↔
      AllStart reactorPoolSize starts := by
  rw [ReactorThreadPool.new, List.forall_mem_map]
  refine forall_congr' fun i => ?_
  rw [List.mem_range, Int.lt_toNat]

lemma afterCreate_acc : (afterCreate reactorPoolSize listening watched starts).server.acc =
    (TCPAcceptor.new.create listening watched).2 := by
  rw [afterCreate, create]
  dsimp only
  split <;> rfl

/-- Where the acceptor listens, `Create` succeeds if and only if all threads start, and otherwise the pool is emptied. -/
lemma create_listening (reactorPoolSize : ℤ) (watched : Bool) (starts : ℕ → Bool) (conn : ℤ) :
    (((new reactorPoolSize).create (some conn) watched starts).1 = true ↔ AllStart reactorPoolSize starts) ∧
      (afterCreate reactorPoolSize (some conn) watched starts).server.reactorPool.Running ∧
      (((new reactorPoolSize).create (some conn) watched starts).1 = false →
        (afterCreate reactorPoolSize (some conn) watched starts).server.reactorPool.reactorPool = []) := by
  rw [afterCreate, ← new_allStart]
  cases hempty : (new reactorPoolSize).reactorPool.isEmpty with
  | true =>
    have hcreate : (new reactorPoolSize).create (some conn) watched starts =
        (true, ⟨.new reactorPoolSize, (TCPAcceptor.new.create (some conn) watched).2⟩) := by
      rw [create]
      dsimp only [TCPAcceptor.create]
      rw [hempty]
      rfl
    have hnil : (ReactorThreadPool.new reactorPoolSize).reactorPool = [] := List.isEmpty_iff.1 hempty
    rw [hcreate, hnil]
    refine ⟨iff_of_true rfl (by rintro t ⟨⟩), ⟨?_, Nat.zero_le _⟩, by rintro ⟨⟩⟩
    dsimp only
    rw [hnil]
    rintro t ⟨⟩
  | false =>
    have hcreate : (new reactorPoolSize).create (some conn) watched starts =
        (((ReactorThreadPool.new reactorPoolSize).start starts).1,
          ⟨((ReactorThreadPool.new reactorPoolSize).start starts).2,
            (TCPAcceptor.new.create (some conn) watched).2⟩) := by
      rw [create]
      dsimp only [TCPAcceptor.create]
      rw [hempty]
      rfl
    rw [hcreate]
    exact ReactorThreadPool.start_spec rfl

lemma afterCreate_live : (afterCreate reactorPoolSize listening watched starts).Live := by
  intro hw
  cases listening with
  | none =>
    rw [afterCreate_acc] at hw
    cases hw
  | some conn => exact (create_listening _ _ _ conn).2.1

/-- **The message loops of connections are alive** in every run after `Create`, whether it fails or not. -/
theorem created_live {as : List (LoopEvent × List ServerEffect)} {r : ServerRun}
    (hrun : Run ServerRun.Step (afterCreate reactorPoolSize listening watched starts) as r) {e : LoopEvent}
    (he : r.Enabled e) :
    ∃ r' out, r.exec e = .ok (r', out) ∧ ∀ conn loop, .created conn loop ∈ out → r'.LoopLive loop := by
  have hlive : r.Live := by
    refine hrun.inv (P := fun _ r => r.Live) afterCreate_live ?_
    rintro - r ⟨e, out⟩ r' hr ⟨he, hexec⟩
    obtain ⟨r'', out', hexec', hkeeps⟩ := hr.exec he
    obtain ⟨rfl, rfl⟩ := Prod.mk.inj (Except.ok.inj (hexec.symm.trans hexec'))
    exact hkeeps.live
  obtain ⟨r', out, hexec, hkeeps⟩ := hlive.exec he
  exact ⟨r', out, hexec, hkeeps.created⟩

/-! ### When a `Create` that fails has no effect -/

/-- In every run nothing is accepted, created or delivered, and no event fails. -/
def Harmless (r : ServerRun) : Prop :=
  ∀ as r', Run ServerRun.Step r as r' →
    (∀ a ∈ as, a.2 = []) ∧ ∀ e, r'.Enabled e → ∃ r'' out, r'.exec e = .ok (r'', out)

lemma harmless_of_not_watching {r : ServerRun} (hw : r.server.acc.watching = false) (hposted : r.posted = []) :
    Harmless r := by
  have henabled : ∀ e, ¬ r.Enabled e := by
    intro e he
    cases e with
    | canRead conn disableNagle => exact Bool.false_ne_true (hw.symm.trans he)
    | runTask => exact he hposted
  intro as r' hrun
  have hnil : as = [] ∧ r' = r := by
    refine hrun.inv (P := fun as r' => as = [] ∧ r' = r) ⟨rfl, rfl⟩ ?_
    rintro as r₁ a r' ⟨rfl, rfl⟩ ⟨he, -⟩
    exact absurd he (henabled a.1)
  obtain ⟨rfl, rfl⟩ := hnil
  refine ⟨by rintro a ⟨⟩, ?_⟩
  intro e he
  exact absurd he (henabled e)

/-- Where the socket is watched and there is no reactor, a connection is accepted on the server's own message loop. -/
lemma accepts_on_main {r : ServerRun} (hw : r.server.acc.watching = true)
    (hstate : r.server.acc.waitState = .waitingAccept) (hnil : r.server.reactorPool.reactorPool = []) (conn : ℤ) :
    r.Step (.canRead (some conn) true, [.accepted conn, .created conn .main, .onNewConnection conn]) r := by
  have hempty : r.server.reactorPool.isEmpty = true := List.isEmpty_iff.2 hnil
  refine ⟨hw, ?_⟩
  dsimp only
  rw [ServerRun.exec, ServerRun.onFileCanRead, if_pos hstate, accept, if_pos rfl]
  dsimp only
  rw [ServerRun.onCreateConnection, TCPServer.nextMessageLoop, if_pos hempty]
  rfl

/-- **When a `Create` that fails has no effect**: if and only if the listening socket is not there or not watched, or all
threads start. -/
theorem create_harmless_iff (reactorPoolSize : ℤ) (listening : Option ℤ) (watched : Bool) (starts : ℕ → Bool) :
    (((new reactorPoolSize).create listening watched starts).1 = false →
        Harmless (afterCreate reactorPoolSize listening watched starts)) ↔
      (listening = none ∨ watched = false ∨ AllStart reactorPoolSize starts) := by
  have hacc : (afterCreate reactorPoolSize listening watched starts).server.acc =
      (TCPAcceptor.new.create listening watched).2 := afterCreate_acc
  cases listening with
  | none => exact iff_of_true (fun _ => harmless_of_not_watching (by rw [hacc]; rfl) rfl) (.inl rfl)
  | some s =>
    cases watched with
    | false => exact iff_of_true (fun _ => harmless_of_not_watching (by rw [hacc]; rfl) rfl) (.inr (.inl rfl))
    | true =>
      obtain ⟨hret, -, hnil⟩ := create_listening reactorPoolSize true starts s
      constructor
      · intro h
        refine .inr (.inr (hret.1 ?_))
        by_contra hfail
        have hfalse := Bool.eq_false_iff.2 hfail
        -- The pool is empty and the socket is still watched.
        have hstep := accepts_on_main (by rw [hacc]; rfl) (by rw [hacc]; rfl) (hnil hfalse) 0
        have hquiet := (h hfalse _ _ (Run.nil.snoc hstep)).1 _ (List.mem_append_right _ List.mem_cons_self)
        cases hquiet
      · rintro (hnone | hfalse | hall) hfail
        · cases hnone
        · cases hfalse
        · rw [hret.2 hall] at hfail
          cases hfail

/-- One reactor, which does not start. -/
theorem accepts_after_failure : ¬ (((new 1).create (some 3) true fun _ => false).1 = false →
    Harmless (afterCreate 1 (some 3) true fun _ => false)) := by
  intro h
  have hstep := accepts_on_main (r := afterCreate 1 (some 3) true fun _ => false) rfl rfl rfl 7
  have hquiet := (h rfl _ _ (Run.nil.snoc hstep)).1 _ (List.mem_append_right _ List.mem_cons_self)
  cases hquiet

end TCPServer

end Zutils.Net
