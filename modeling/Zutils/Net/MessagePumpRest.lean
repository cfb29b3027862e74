import Zutils.Net.MessagePumpSpec

/-!
# The loop finishes its work

Left alone, with no more posts and no call of `Quit`, the loop of `MessagePumpLibevent2::Run` comes to rest, and then
every task has been run (`tasks_finished`).

It goes around again only for a reason: it has done something, a byte was in the wakeup pipe, or a delayed task has
come due. Each of these uses something up, and `effort` counts what there is to use: a task on its way from the incoming
queue to the heap, a byte, a flag that asks for another round, and a delayed task that is not due yet. Where no step is
left the loop sleeps with no timer, and what it knows of the tasks that wait (`Vigilant`) says that there are none.
-/

namespace Zutils.Net

open Zutils.Lib

namespace PumpLoop

variable {α : Type} {s s' : PumpLoop α} {capacity : ℕ}

/-! ### What there is to do -/

/-- The first delayed task is due, by the clock that was read last. -/
def isDue (s : PumpLoop α) : Bool := s.earliest.any (· ≤ s.clock)

/-- The loop will go around once more for what it has done. -/
def isWarm (s : PumpLoop α) : Bool :=
  match s.state with
  | .doWork => s.processedIoEvents
  | .polling | .doDelayedWork => s.didWork || s.processedIoEvents
  | .doIdleWork | .deciding | .asleep _ | .stopped => false

/-- A delayed task will have to wait for the timer. -/
def isEarly (s : PumpLoop α) : Bool := s.state.isIdle || !s.isDue

end PumpLoop

/-- The steps from here to the end of the loop. -/
def PumpState.steps : PumpState → ℕ
  | doWork => 6
  | polling => 5
  | doDelayedWork => 4
  | doIdleWork => 3
  | deciding => 2
  | asleep _ => 1
  | stopped => 0

namespace PumpLoop

variable {α : Type} {s s' : PumpLoop α} {capacity : ℕ}

/-- What is left to do before the loop can rest. A task in the incoming queue has further to go than one in the queue of
the loop, and that one further than one in the heap. -/
def effort (s : PumpLoop α) : ℕ :=
  10 * (4 * s.incomingQueue.length + 3 * s.workQueue.length + 2 * s.delayedWorkQueue.length + 2 * s.wakeupPipe +
    s.isWarm.toNat + s.isEarly.toNat) + s.state.steps

/-- A step of the loop that nothing else takes part in. -/
structure Advances (s s' : PumpLoop α) : Prop where
  keepRunning : s'.keepRunning = true
  state : s'.state ≠ .stopped
  posting : s'.posting = s.posting
  posted : s'.posted = s.posted
  effort : s'.effort < s.effort

lemma goOn_eq (h : s.keepRunning = true) (next : PumpState) : s.goOn next = { s with state := next } := by
  rw [goOn, if_pos h]

lemma advances_reloadWorkQueue (h : s.keepRunning = true) (hstate : s.state = .doWork) (hw : s.workQueue = []) :
    s.Advances s.reloadWorkQueue := by
  unfold PumpLoop.reloadWorkQueue
  split
  · rw [goOn_eq (by exact h)]
    refine ⟨h, by simp, rfl, rfl, ?_⟩
    simp [effort, isWarm, isEarly, isDue, earliest, hstate, PumpState.steps, PumpState.isIdle]
  · rename_i hne
    have hpos := List.length_pos_of_ne_nil hne
    refine ⟨h, by simp [hstate], rfl, rfl, ?_⟩
    simp [effort, isWarm, isEarly, isDue, earliest, hstate, PumpState.steps, PumpState.isIdle, hw]
    omega

/-- A task more in the heap does not make the first one later. -/
lemma isDue_orderedInsert {t : PendingTask α} {q : List (PendingTask α)} {clock : ℕ} 
    (h : (q.head?.map PendingTask.delayedRunTime).any (· ≤ clock) = true) :
    (((q.orderedInsert (fun a b => a.key ≤ b.key) t).head?.map PendingTask.delayedRunTime).any (· ≤ clock)) = true := by
  cases q with
  | nil => simp at h
  | cons t' rest =>
    have ht' : t'.delayedRunTime ≤ clock := by simpa using h
    rw [List.orderedInsert_cons]
    split
    · rename_i hle
      have hle' : t.delayedRunTime ≤ t'.delayedRunTime := (Prod.Lex.le_iff.1 hle).elim le_of_lt fun h => le_of_eq h.1
      simpa using hle'.trans ht'
    · simpa using ht'

lemma advances_nextTask [DecidableEq α] {t : PendingTask α} {rest : List (PendingTask α)} (h : s.keepRunning = true)
    (hstate : s.state = .doWork) (hw : s.workQueue = t :: rest) :
    s.Advances (s.nextTask capacity t rest false) := by
  unfold PumpLoop.nextTask
  by_cases ht : t.delayedRunTime ≠ 0
  · rw [if_pos ht]
    have hlen : (s.delayedWorkQueue.orderedInsert (fun a b => a.key ≤ b.key) t).length = s.delayedWorkQueue.length + 1 :=
      List.orderedInsert_length _ _ _
    set q := s.delayedWorkQueue.orderedInsert (fun a b => a.key ≤ b.key) t with hq
    have hdue : (!(q.head?.map PendingTask.delayedRunTime).any (· ≤ s.clock)).toNat ≤ (!s.isDue).toNat := by
      unfold isDue earliest
      cases hd : (s.delayedWorkQueue.head?.map PendingTask.delayedRunTime).any (· ≤ s.clock) with
      | false => exact Bool.toNat_le _
      | true => rw [hq, isDue_orderedInsert hd]
    dsimp only
    split
    · refine ⟨h, by simp [hstate], rfl, rfl, ?_⟩
      simp [effort, isWarm, isEarly, isDue, earliest, hstate, PumpState.steps, PumpState.isIdle, hw] at hdue ⊢
      omega
    · refine ⟨h, by simp [hstate], rfl, rfl, ?_⟩
      simp [effort, isWarm, isEarly, isDue, earliest, hstate, PumpState.steps, PumpState.isIdle, hw] at hdue ⊢
      omega
  · rw [if_neg ht, goOn_eq (by exact h)]
    refine ⟨h, by simp, rfl, rfl, ?_⟩
    simp [effort, isWarm, isEarly, isDue, earliest, hstate, PumpState.steps, PumpState.isIdle, hw, runTask, PumpLoop.quit]
    omega

lemma advances_poll {wakeup : Bool} (h : s.keepRunning = true) (hstate : s.state = .polling)
    (hwakeup : wakeup = true → 0 < s.wakeupPipe) : s.Advances (s.poll capacity wakeup false false) := by
  unfold PumpLoop.poll
  rw [goOn_eq (by exact h)]
  refine ⟨h, by simp, rfl, rfl, ?_⟩
  cases wakeup with
  | false =>
    simp [effort, isWarm, isEarly, isDue, earliest, hstate, PumpState.steps, PumpState.isIdle, PumpLoop.quit]
  | true =>
    have hpos := hwakeup rfl
    simp [effort, isWarm, isEarly, isDue, earliest, hstate, PumpState.steps, PumpState.isIdle, PumpLoop.quit]
    omega

lemma effort_le (s : PumpLoop α) :
    s.effort ≤ 10 * (4 * s.incomingQueue.length + 3 * s.workQueue.length + 2 * s.delayedWorkQueue.length +
      2 * s.wakeupPipe + s.isWarm.toNat + 1) + s.state.steps := by
  unfold effort
  have := Bool.toNat_le s.isEarly
  omega

/-- A task that is due is run; with none, the loop goes on to `DoIdleWork` only when it has done nothing else. -/
lemma advances_delayedWork (hs : s.Queues) {now : ℕ} (h : s.keepRunning = true) (hstate : s.state = .doDelayedWork)
    (hprocessed : s.processedIoEvents = false) (hnow : s.clock ≤ now) :
    s.Advances (s.delayedWork capacity now false) := by
  unfold PumpLoop.delayedWork
  rcases @doDelayedWork_cases α s capacity now false hs.recent_le hnow with
    ⟨hq, he⟩ | ⟨t, rest, recent, clock, hq, hclock, -, ⟨hnot, he⟩ | ⟨-, time, he⟩⟩
  · rw [he]
    dsimp only
    rw [goOn_eq (by exact h)]
    cases hdid : s.didWork with
    | false =>
      refine ⟨h, by simp, rfl, rfl, ?_⟩
      simp [effort, isWarm, isEarly, isDue, earliest, hstate, hq, PumpState.steps, PumpState.isIdle, hdid, hprocessed]
    | true =>
      refine ⟨h, by simp, rfl, rfl, ?_⟩
      simp [effort, isWarm, isEarly, isDue, earliest, hstate, hq, PumpState.steps, PumpState.isIdle, hdid, hprocessed]
      omega
  · have hbefore : s.clock < t.delayedRunTime := Nat.lt_of_le_of_lt hclock hnot
    rw [he]
    dsimp only
    rw [goOn_eq (by exact h)]
    cases hdid : s.didWork with
    | false =>
      refine ⟨h, by simp, rfl, rfl, ?_⟩
      simp [effort, isWarm, isEarly, isDue, earliest, hstate, hq, PumpState.steps, PumpState.isIdle, hdid, hprocessed,
        hnot.not_ge, hbefore.not_ge]
    | true =>
      refine ⟨h, by simp, rfl, rfl, ?_⟩
      simp [effort, isWarm, isEarly, isDue, earliest, hstate, hq, PumpState.steps, PumpState.isIdle, hdid, hprocessed,
        hnot.not_ge, hbefore.not_ge]
      omega
  · rw [he]
    dsimp only
    rw [goOn_eq (by exact h)]
    refine ⟨h, by simp, rfl, rfl, (effort_le _).trans_lt ?_⟩
    simp [effort, isWarm, hstate, hq, PumpState.steps, runTask, PumpLoop.quit, hprocessed]
    omega

lemma advances_idleWork (h : s.keepRunning = true) (hstate : s.state = .doIdleWork) :
    s.Advances (s.idleWork capacity false) := by
  unfold PumpLoop.idleWork
  rw [goOn_eq (by exact h)]
  refine ⟨h, by simp, rfl, rfl, ?_⟩
  simp [effort, isWarm, isEarly, isDue, earliest, hstate, PumpState.steps, PumpState.isIdle, PumpLoop.quit]

lemma advances_decide (hv : s.Vigilant) {now : ℕ} (h : s.keepRunning = true) (hstate : s.state = .deciding) :
    s.Advances (s.decide now) := by
  have hprocessed : s.processedIoEvents = false := hv.processed (by rw [hstate]; rfl)
  have htimer := hv.timer (by rw [hstate]; rfl)
  unfold PumpLoop.decide
  split
  · refine ⟨h, by simp, rfl, rfl, ?_⟩
    simp [effort, isWarm, isEarly, isDue, earliest, hstate, PumpState.steps, PumpState.isIdle]
  · rename_i hzero
    split
    · refine ⟨h, by simp, rfl, rfl, ?_⟩
      simp [effort, isWarm, isEarly, isDue, earliest, hstate, PumpState.steps, PumpState.isIdle]
    · rename_i hpast
      refine ⟨h, by simp, rfl, rfl, ?_⟩
      cases hearliest : s.earliest with
      | none => simp [htimer, hearliest] at hzero
      | some time =>
        have hle : time ≤ now := by simpa [htimer, hearliest] using hpast
        unfold earliest at hearliest
        simp [effort, isWarm, isEarly, isDue, earliest, hstate, PumpState.steps, PumpState.isIdle, hearliest, hle,
          hprocessed]
        omega

/-- A byte that is read, or a task that is due, makes up for another round. -/
lemma advances_wake (hv : s.Vigilant) {wakeup timer : Bool} {time : Option ℕ} {now : ℕ} (h : s.keepRunning = true)
    (hstate : s.state = .asleep time) (hwoken : wakeup = true ∨ timer = true)
    (hwakeup : wakeup = true → 0 < s.wakeupPipe) (htimer : timer = true → ∃ t ∈ time, t ≤ now) :
    s.Advances (s.wake capacity wakeup false false now) := by
  have hprocessed : s.processedIoEvents = false := hv.processed (by rw [hstate]; rfl)
  have hearliest := hv.asleep time hstate
  refine ⟨h, by simp [PumpLoop.wake, PumpLoop.quit], rfl, rfl, ?_⟩
  cases wakeup with
  | true =>
    have hpos := hwakeup rfl
    refine (effort_le _).trans_lt ?_
    simp [effort, isWarm, isEarly, hstate, PumpState.steps, PumpState.isIdle, PumpLoop.wake, PumpLoop.quit]
    omega
  | false =>
    obtain ⟨t, ht, hle⟩ := htimer (hwoken.resolve_left Bool.false_ne_true)
    obtain rfl := Option.mem_def.1 ht
    have hearliest := hearliest.symm
    unfold earliest at hearliest
    simp [effort, isWarm, isEarly, isDue, earliest, hstate, PumpState.steps, PumpState.isIdle, PumpLoop.wake,
      PumpLoop.quit, hprocessed, hearliest, hle]
    omega

/-- Nobody is in `PostPendingTask`, nothing has called `Quit`, and `posted` was posted. -/
structure Busy (posted : List (PendingTask α)) (s : PumpLoop α) : Prop where
  queues : s.Queues
  vigilant : s.Vigilant
  posting : s.posting = none
  keepRunning : s.keepRunning = true
  state : s.state ≠ .stopped
  posted : s.posted = posted

/-- **Every step of the loop** brings it nearer to the sleep. -/
theorem Busy.exec [DecidableEq α] {posted : List (PendingTask α)} (h : s.Busy posted) (hcap : 0 < capacity)
    {e : PumpEvent α} (hloop : e.OfLoop) (he : e.exec capacity s = some s') : s'.Busy posted ∧ s'.effort < s.effort := by
  have hadv : s.Advances s' := by
    cases e with
    | post | scheduleWork => exact hloop.elim
    | reloadWorkQueue =>
      obtain ⟨⟨hstate, hw, -⟩, he⟩ := Option.ite_none_right_eq_some.1 he
      obtain rfl := Option.some.inj he
      exact advances_reloadWorkQueue h.keepRunning hstate hw
    | nextTask quits =>
      obtain rfl : quits = false := hloop
      rw [PumpEvent.exec] at he
      split at he
      · cases he
      · rename_i t rest hw
        obtain ⟨hstate, he⟩ := Option.ite_none_right_eq_some.1 he
        obtain rfl := Option.some.inj he
        exact advances_nextTask h.keepRunning hstate hw
    | poll wakeup io quits =>
      obtain ⟨rfl, rfl⟩ := hloop
      obtain ⟨⟨hstate, hwakeup, -⟩, he⟩ := Option.ite_none_right_eq_some.1 he
      obtain rfl := Option.some.inj he
      exact advances_poll h.keepRunning hstate hwakeup
    | delayedWork now quits =>
      obtain rfl : quits = false := hloop
      obtain ⟨⟨hstate, hnow⟩, he⟩ := Option.ite_none_right_eq_some.1 he
      obtain rfl := Option.some.inj he
      exact advances_delayedWork h.queues h.keepRunning hstate (h.vigilant.processed (by rw [hstate]; rfl)) hnow
    | idleWork quits =>
      obtain rfl : quits = false := hloop
      obtain ⟨hstate, he⟩ := Option.ite_none_right_eq_some.1 he
      obtain rfl := Option.some.inj he
      exact advances_idleWork h.keepRunning hstate
    | decide now =>
      obtain ⟨⟨hstate, -⟩, he⟩ := Option.ite_none_right_eq_some.1 he
      obtain rfl := Option.some.inj he
      exact advances_decide h.vigilant h.keepRunning hstate
    | wake wakeup io timer quits now =>
      obtain ⟨rfl, rfl⟩ := hloop
      rw [PumpEvent.exec] at he
      split at he
      · rename_i time hstate
        obtain ⟨⟨hwoken, hwakeup, htimer, -⟩, he⟩ := Option.ite_none_right_eq_some.1 he
        obtain rfl := Option.some.inj he
        exact advances_wake h.vigilant h.keepRunning hstate (hwoken.imp_right fun h => by simpa using h) hwakeup htimer
      · cases he
  exact ⟨⟨h.queues.exec he, h.vigilant.exec h.queues hcap he, hadv.posting.trans h.posting, hadv.keepRunning, hadv.state,
    hadv.posted.trans h.posted⟩, hadv.effort⟩

/-- Where the loop has no step, it sleeps without a timer, and there is no byte in the pipe. -/
lemma Busy.rest [DecidableEq α] {posted : List (PendingTask α)} (h : s.Busy posted)
    (hrest : ∀ e : PumpEvent α, e.OfLoop → e.exec capacity s = none) : s.state = .asleep none ∧ s.wakeupPipe = 0 := by
  cases hstate : s.state with
  | doWork =>
    cases hw : s.workQueue with
    | nil =>
      have hexec := hrest .reloadWorkQueue trivial
      simp [PumpEvent.exec, hstate, hw, h.posting] at hexec
    | cons t rest =>
      have hexec := hrest (.nextTask false) rfl
      simp [PumpEvent.exec, hstate, hw] at hexec
  | polling =>
    have hexec := hrest (.poll false false false) ⟨rfl, rfl⟩
    simp [PumpEvent.exec, hstate] at hexec
  | doDelayedWork =>
    have hexec := hrest (.delayedWork s.clock false) rfl
    simp [PumpEvent.exec, hstate] at hexec
  | doIdleWork =>
    have hexec := hrest (.idleWork false) rfl
    simp [PumpEvent.exec, hstate] at hexec
  | deciding =>
    have hexec := hrest (.decide s.clock) trivial
    simp [PumpEvent.exec, hstate] at hexec
  | asleep timer =>
    cases timer with
    | none =>
      refine ⟨rfl, Nat.eq_zero_of_not_pos fun hpipe => ?_⟩
      have hexec := hrest (.wake true false false false s.clock) ⟨rfl, rfl⟩
      simp [PumpEvent.exec, hstate, hpipe] at hexec
    | some time =>
      have hexec := hrest (.wake false false true false (max s.clock time)) ⟨rfl, rfl⟩
      simp [PumpEvent.exec, hstate] at hexec
  | stopped => exact absurd hstate h.state

/-- **The loop finishes its work**: from any state it can reach with nobody in `PostPendingTask` and no call of `Quit`,
the loop left alone takes only so many steps, and where it can take no more every task that was posted has been run. -/
theorem tasks_finished [DecidableEq α] (hcap : 0 < capacity) {es : List (PumpEvent α)}
    (h : Run (Pumps capacity) (new α) es s) (hposting : s.posting = none) (hrun : s.keepRunning = true)
    (hstate : s.state ≠ .stopped) {es' : List (PumpEvent α)}
    (h' : Run (fun s e s' => e.OfLoop ∧ Pumps capacity s e s') s es' s') :
    es'.length ≤ s.effort ∧
    ((∀ e : PumpEvent α, e.OfLoop → e.exec capacity s' = none) →
      s'.state = .asleep none ∧ (s'.ran.map Prod.fst).Perm s.posted) := by
  have hbusy : s.Busy s.posted := ⟨queues_of_run h, vigilant_of_run hcap h, hposting, hrun, hstate, rfl⟩
  obtain ⟨hbusy', hle⟩ := h'.length_le (Busy s.posted) effort hbusy
    fun _ _ _ hs he => hs.exec hcap he.1 he.2
  refine ⟨by omega, fun hrest => ?_⟩
  obtain ⟨hsleep, hpipe⟩ := hbusy'.rest hrest
  have hv := hbusy'.vigilant
  have hidle : s'.state.isIdle = true := by rw [hsleep]; rfl
  obtain ⟨hw, hwait⟩ := hv.quiet ⟨hv.idle hidle, .inr (by rw [hsleep]; rfl)⟩
  have hincoming : s'.incomingQueue = [] := by
    by_contra hne
    rcases hwait hne with hpos | hposting
    · omega
    · rw [hbusy'.posting] at hposting
      cases hposting
  have hdelayed : s'.delayedWorkQueue = [] := by
    have hnone := (hv.asleep none hsleep).symm
    simpa [earliest] using hnone
  have hplaces := hbusy'.queues.places
  rw [hw, hincoming, hdelayed, hbusy'.posted] at hplaces
  exact ⟨hsleep, by simpa using hplaces⟩

/-- A task that was posted while the loop was in `DoWork`. -/
theorem tasks_finished_run : ∃ s s' : PumpLoop ℕ,
    Run (Pumps 1) (new ℕ) [.post 7 0 1, .scheduleWork] s ∧
    Run (fun s e s' => e.OfLoop ∧ Pumps 1 s e s') s [.reloadWorkQueue, .nextTask false, .poll true false false,
      .delayedWork 1 false, .reloadWorkQueue, .poll false false false, .delayedWork 1 false, .idleWork false, .decide 1]
      s' ∧
    (s'.ran.map Prod.fst).Perm s.posted := by
  have h : Run (Pumps 1) (new ℕ) [.post 7 0 1, .scheduleWork]
      ⟨[⟨7, 0, 0⟩], 1, none, 1, [], [], 0, 0, true, false, false, .doWork, 1, [⟨7, 0, 0⟩], []⟩ :=
    Run.of_foldlM (f := fun s e => PumpEvent.exec 1 e s) (fun _ _ _ he => he) rfl
  have h' : Run (fun s e s' => e.OfLoop ∧ Pumps 1 s e s')
      ⟨[⟨7, 0, 0⟩], 1, none, 1, [], [], 0, 0, true, false, false, .doWork, 1, [⟨7, 0, 0⟩], []⟩
      [.reloadWorkQueue, .nextTask false, .poll true false false, .delayedWork 1 false, .reloadWorkQueue,
        .poll false false false, .delayedWork 1 false, .idleWork false, .decide 1]
      ⟨[], 1, none, 0, [], [], 0, 0, true, false, false, .asleep none, 1, [⟨7, 0, 0⟩], [(⟨7, 0, 0⟩, 1)]⟩ :=
    Run.of_guarded (fun e _ => e.OfLoop) (PumpEvent.exec 1) (fun _ _ _ hl he => ⟨hl, he⟩) rfl
  refine ⟨_, _, h, h', ((tasks_finished one_pos h rfl rfl (by simp) h').2 ?_).2⟩
  intro e hloop
  cases e with
  | post | scheduleWork => exact hloop.elim
  | reloadWorkQueue | nextTask | poll | delayedWork | idleWork | decide => rfl
  | wake wakeup io timer quits now =>
    obtain ⟨rfl, rfl⟩ := hloop
    cases wakeup <;> cases timer <;> simp [PumpEvent.exec]

end PumpLoop

end Zutils.Net
