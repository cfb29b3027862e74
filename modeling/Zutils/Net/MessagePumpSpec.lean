import Zutils.Net.MessagePump

/-!
# No task is lost, and no wakeup

Any run of the loop, its posting threads and the events of the kernel.

Every task that was posted is in one place: it has been run, or it waits in the heap, in the queue of the loop or in the
incoming queue. Tasks without a delay are run in the order in which they were posted, and no task is run before its
time (`tasks_accounted`).

The loop sleeps only when it is right to sleep. What carries this is that `DoWork` returns false only on an empty
incoming queue, and that the next thread to post then writes a byte; the byte stays in the pipe until the loop is told
of it (`Quiet`). So where the loop sleeps, a task that waits has its byte in the pipe or a thread about to write one,
and the timer is set for the first of the delayed tasks (`no_lost_wakeup`).
-/

namespace Zutils.Net

open Zutils.Lib

namespace PumpLoop

variable {α : Type} {s s' : PumpLoop α} {capacity : ℕ}

/-! ### Small steps -/

section Fields

variable (s) (capacity) (quits : Bool) (next : PumpState)

lemma quit_eq : ∃ keepRunning wakeupPipe, s.quit capacity quits =
      { s with keepRunning := keepRunning, wakeupPipe := wakeupPipe } ∧ s.wakeupPipe ≤ wakeupPipe ∧
      (quits = false → keepRunning = s.keepRunning) := by
  unfold quit scheduleWork
  cases quits with
  | false => exact ⟨s.keepRunning, s.wakeupPipe, rfl, le_rfl, fun _ => rfl⟩
  | true =>
    rw [if_pos rfl]
    split
    · exact ⟨false, s.wakeupPipe + 1, rfl, Nat.le_succ _, fun h => (by cases h)⟩
    · exact ⟨false, s.wakeupPipe, rfl, le_rfl, fun h => (by cases h)⟩

end Fields

/-! ### The tasks -/

lemma perm_move {β : Type} (a b c : List β) (t : β) : (a ++ t :: b ++ c).Perm (a ++ b ++ t :: c) :=
  (List.perm_middle.append_right c).trans List.perm_middle.symm

/-- Every task is in its place. -/
structure Queues (s : PumpLoop α) : Prop where
  sorted : s.delayedWorkQueue.Pairwise fun a b => a.key ≤ b.key
  delayed : ∀ t ∈ s.delayedWorkQueue, t.delayedRunTime ≠ 0
  places : (s.ran.map Prod.fst ++ s.delayedWorkQueue ++ s.workQueue ++ s.incomingQueue).Perm s.posted
  fifo : (s.ran.map Prod.fst ++ s.workQueue ++ s.incomingQueue).filter PendingTask.isImmediate =
    s.posted.filter PendingTask.isImmediate
  recent_le : s.recentTime ≤ s.clock
  due : ∀ r ∈ s.ran, r.1.delayedRunTime ≤ r.2

lemma Queues.congr (h : s.Queues) (hq : s'.delayedWorkQueue = s.delayedWorkQueue) (hr : s'.ran = s.ran)
    (hw : s'.workQueue = s.workQueue) (hi : s'.incomingQueue = s.incomingQueue) (hp : s'.posted = s.posted)
    (hrecent : s'.recentTime = s.recentTime) (hclock : s.clock ≤ s'.clock) : s'.Queues where
  sorted := hq ▸ h.sorted
  delayed := hq ▸ h.delayed
  places := by rw [hq, hr, hw, hi, hp]; exact h.places
  fifo := by rw [hr, hw, hi, hp]; exact h.fifo
  recent_le := hrecent ▸ h.recent_le.trans hclock
  due := hr ▸ h.due

lemma Queues.quit (h : s.Queues) (capacity : ℕ) (quits : Bool) : (s.quit capacity quits).Queues := by
  obtain ⟨keepRunning, wakeupPipe, he, -⟩ := quit_eq s capacity quits
  rw [he]
  exact h.congr rfl rfl rfl rfl rfl rfl le_rfl

lemma Queues.goOn (h : s.Queues) (next : PumpState) : (s.goOn next).Queues :=
  h.congr rfl rfl rfl rfl rfl rfl le_rfl

lemma Queues.post (h : s.Queues) (task : α) (delay : ℕ) {now : ℕ} (hnow : s.clock ≤ now) :
    (s.post task delay now).Queues where
  sorted := h.sorted
  delayed := h.delayed
  places := by
    show (_ ++ (s.incomingQueue ++ [_])).Perm (s.posted ++ [_])
    rw [← List.append_assoc]
    exact h.places.append_right _
  fifo := by
    have hfifo := congrArg (· ++ [(⟨task, if 0 < delay then now + delay else 0, s.nextSequenceNum⟩ :
      PendingTask α)].filter PendingTask.isImmediate) h.fifo
    simpa [PumpLoop.post] using hfifo
  recent_le := h.recent_le.trans hnow
  due := h.due

lemma Queues.reloadWorkQueue (h : s.Queues) (hw : s.workQueue = []) : s.reloadWorkQueue.Queues := by
  unfold PumpLoop.reloadWorkQueue
  split
  · exact h.congr rfl rfl rfl rfl rfl rfl le_rfl
  · have hplaces := h.places
    have hfifo := h.fifo
    rw [hw, List.append_nil] at hplaces hfifo
    exact ⟨h.sorted, h.delayed, by simpa using hplaces, by simpa using hfifo, h.recent_le, h.due⟩

lemma Queues.runTask {t : PendingTask α} (quits : Bool)
    (hsorted : s.delayedWorkQueue.Pairwise fun a b => a.key ≤ b.key)
    (hdelayed : ∀ t ∈ s.delayedWorkQueue, t.delayedRunTime ≠ 0)
    (hplaces : (s.ran.map Prod.fst ++ t :: s.delayedWorkQueue ++ s.workQueue ++ s.incomingQueue).Perm s.posted)
    (hfifo : (s.ran.map Prod.fst ++ t :: s.workQueue ++ s.incomingQueue).filter PendingTask.isImmediate =
      s.posted.filter PendingTask.isImmediate)
    (hrecent : s.recentTime ≤ s.clock) (hdue : ∀ r ∈ s.ran, r.1.delayedRunTime ≤ r.2)
    (ht : t.delayedRunTime ≤ s.clock) : (s.runTask capacity t quits).Queues := by
  apply Queues.quit
  refine ⟨hsorted, hdelayed, ?_, ?_, hrecent, ?_⟩
  · simpa using hplaces
  · simpa using hfifo
  · intro r hr
    rcases List.mem_append.1 hr with hr | hr
    · exact hdue r hr
    · rw [List.mem_singleton.1 hr]
      exact ht

lemma Queues.nextTask [DecidableEq α] (h : s.Queues) {t : PendingTask α} {rest : List (PendingTask α)} (quits : Bool)
    (hw : s.workQueue = t :: rest) : (s.nextTask capacity t rest quits).Queues := by
  have hplaces := h.places
  have hfifo := h.fifo
  rw [hw] at hplaces hfifo
  unfold PumpLoop.nextTask
  by_cases ht : t.delayedRunTime ≠ 0
  · have hmoved : Queues { s with
        workQueue := rest
        delayedWorkQueue := s.delayedWorkQueue.orderedInsert (fun a b => a.key ≤ b.key) t } := by
      refine ⟨?_, ?_, ?_, ?_, h.recent_le, h.due⟩
      · exact h.sorted.orderedInsert t s.delayedWorkQueue
      · intro t' ht'
        rcases List.mem_orderedInsert _ |>.1 ht' with rfl | ht'
        · exact ht
        · exact h.delayed t' ht'
      · refine List.Perm.trans ?_ hplaces
        have hins := List.perm_orderedInsert (fun a b : PendingTask α => a.key ≤ b.key) t s.delayedWorkQueue
        exact (((hins.append_left _).append_right rest).trans (perm_move _ _ _ t)).append_right s.incomingQueue
      · rw [← hfifo]
        simp [PendingTask.isImmediate, ht]
    rw [if_pos ht]
    dsimp only
    split
    · exact hmoved.congr rfl rfl rfl rfl rfl rfl le_rfl
    · exact hmoved
  · rw [if_neg ht]
    apply Queues.goOn
    refine Queues.congr (Queues.runTask (s := { s with workQueue := rest }) (t := t) quits h.sorted h.delayed ?_ hfifo
      h.recent_le h.due ?_) rfl rfl rfl rfl rfl rfl le_rfl
    · exact ((perm_move _ _ _ t).append_right s.incomingQueue).trans hplaces
    · rw [not_not.1 ht]
      exact Nat.zero_le _

/-- **What `DoDelayedWork` does**: it has nothing, it has a task that is not due, or it runs the first task. -/
lemma doDelayedWork_cases {now : ℕ} (quits : Bool) (hrecent : s.recentTime ≤ s.clock) (hnow : s.clock ≤ now) :
    (s.delayedWorkQueue = [] ∧
      s.doDelayedWork capacity now quits = (false, { s with recentTime := 0, delayedWorkTime := 0 })) ∨
    ∃ t rest recent clock, s.delayedWorkQueue = t :: rest ∧ s.clock ≤ clock ∧ recent ≤ clock ∧
      (clock < t.delayedRunTime ∧ s.doDelayedWork capacity now quits =
          (false, { s with recentTime := recent, clock := clock, delayedWorkTime := t.delayedRunTime }) ∨
        t.delayedRunTime ≤ recent ∧ ∃ delayedWorkTime, s.doDelayedWork capacity now quits = (true,
          { s with
            recentTime := recent
            clock := clock
            delayedWorkQueue := rest
            delayedWorkTime := delayedWorkTime }.runTask capacity t quits)) := by
  unfold PumpLoop.doDelayedWork
  split
  · rename_i hq
    exact .inl ⟨hq, rfl⟩
  · rename_i t rest hq
    right
    by_cases hread : t.delayedRunTime > s.recentTime
    · refine ⟨t, rest, now, now, hq, hnow, le_rfl, ?_⟩
      simp only [if_pos hread]
      by_cases hdue : t.delayedRunTime > now
      · exact .inl ⟨hdue, if_pos hdue⟩
      · exact .inr ⟨Nat.not_lt.1 hdue, _, if_neg hdue⟩
    · refine ⟨t, rest, s.recentTime, s.clock, hq, le_rfl, hrecent, .inr ⟨Nat.not_lt.1 hread, ?_⟩⟩
      simp only [if_neg hread]
      exact ⟨_, rfl⟩

lemma Queues.doDelayedWork (h : s.Queues) {now : ℕ} (quits : Bool) (hnow : s.clock ≤ now) :
    (s.doDelayedWork capacity now quits).2.Queues := by
  rcases @doDelayedWork_cases α s capacity now quits h.recent_le hnow with
    ⟨hq, he⟩ | ⟨t, rest, recent, clock, hq, hclock, hle, ⟨-, he⟩ | ⟨hdue, time, he⟩⟩
  · rw [he]
    exact ⟨h.sorted, h.delayed, h.places, h.fifo, Nat.zero_le _, h.due⟩
  · rw [he]
    exact ⟨h.sorted, h.delayed, h.places, h.fifo, hle, h.due⟩
  · have hplaces := h.places
    have hsorted := h.sorted
    have hdelayed := h.delayed
    rw [hq] at hplaces hsorted hdelayed
    rw [he]
    refine Queues.runTask quits (List.pairwise_cons.1 hsorted).2 (fun t' ht' => hdelayed t' (.tail _ ht')) hplaces ?_ hle
      h.due (hdue.trans hle)
    -- the task that is run is not among those without a delay
    have hnot : t.isImmediate = false := by
      simpa [PendingTask.isImmediate] using hdelayed t List.mem_cons_self
    have hfifo := h.fifo
    simp only [List.filter_append, List.filter_cons, hnot] at hfifo ⊢
    exact hfifo

/-- **Every event** keeps the tasks in their places. -/
theorem Queues.exec [DecidableEq α] (h : s.Queues) {e : PumpEvent α} (he : e.exec capacity s = some s') :
    s'.Queues := by
  cases e with
  | post task delay now =>
    obtain ⟨⟨-, hnow⟩, he⟩ := Option.ite_none_right_eq_some.1 he
    obtain rfl := Option.some.inj he
    exact h.post task delay hnow
  | scheduleWork =>
    rw [PumpEvent.exec] at he
    split at he
    · cases he
    · rename_i wasEmpty hposting
      obtain rfl := Option.some.inj he
      unfold PumpLoop.scheduleWork
      cases wasEmpty with
      | false => exact h.congr rfl rfl rfl rfl rfl rfl le_rfl
      | true =>
        rw [if_pos rfl]
        split
        · exact h.congr rfl rfl rfl rfl rfl rfl le_rfl
        · exact h.congr rfl rfl rfl rfl rfl rfl le_rfl
  | reloadWorkQueue =>
    obtain ⟨⟨-, hw, -⟩, he⟩ := Option.ite_none_right_eq_some.1 he
    obtain rfl := Option.some.inj he
    exact h.reloadWorkQueue hw
  | nextTask quits =>
    rw [PumpEvent.exec] at he
    split at he
    · cases he
    · rename_i t rest hw
      obtain ⟨-, he⟩ := Option.ite_none_right_eq_some.1 he
      obtain rfl := Option.some.inj he
      exact h.nextTask quits hw
  | poll wakeup io quits =>
    obtain ⟨-, he⟩ := Option.ite_none_right_eq_some.1 he
    obtain rfl := Option.some.inj he
    unfold PumpLoop.poll
    apply Queues.goOn
    refine Queues.congr (Queues.quit ?_ capacity quits) rfl rfl rfl rfl rfl rfl le_rfl
    exact h.congr rfl rfl rfl rfl rfl rfl le_rfl
  | delayedWork now quits =>
    obtain ⟨⟨-, hnow⟩, he⟩ := Option.ite_none_right_eq_some.1 he
    obtain rfl := Option.some.inj he
    unfold PumpLoop.delayedWork
    apply Queues.goOn
    exact (h.doDelayedWork quits hnow).congr rfl rfl rfl rfl rfl rfl le_rfl
  | idleWork quits =>
    obtain ⟨-, he⟩ := Option.ite_none_right_eq_some.1 he
    obtain rfl := Option.some.inj he
    exact (h.quit capacity quits).goOn _
  | decide now =>
    obtain ⟨⟨-, hnow⟩, he⟩ := Option.ite_none_right_eq_some.1 he
    obtain rfl := Option.some.inj he
    unfold PumpLoop.decide
    split
    · exact h.congr rfl rfl rfl rfl rfl rfl le_rfl
    · split
      · exact h.congr rfl rfl rfl rfl rfl rfl hnow
      · exact h.congr rfl rfl rfl rfl rfl rfl hnow
  | wake wakeup io timer quits now =>
    rw [PumpEvent.exec] at he
    split at he
    · obtain ⟨⟨-, -, -, -, hnow⟩, he⟩ := Option.ite_none_right_eq_some.1 he
      obtain rfl := Option.some.inj he
      unfold PumpLoop.wake
      apply Queues.quit
      exact h.congr rfl rfl rfl rfl rfl rfl hnow
    · cases he

/-! ### The sleep -/

end PumpLoop

namespace PumpState

/-- Behind `DoDelayedWork`. -/
def isIdle : PumpState → Bool
  | doIdleWork | deciding | asleep _ => true
  | doWork | polling | doDelayedWork | stopped => false

/-- Behind the poll. -/
def isPolled : PumpState → Bool
  | doDelayedWork | doIdleWork | deciding | asleep _ => true
  | doWork | polling | stopped => false

end PumpState

namespace PumpLoop

variable {α : Type} {s s' : PumpLoop α} {capacity : ℕ}

/-- The time of the first delayed task. -/
def earliest (s : PumpLoop α) : Option ℕ := s.delayedWorkQueue.head?.map PendingTask.delayedRunTime

/-- Since `DoWork` has found nothing, the loop has done nothing and has been told of nothing. -/
def Quiet (s : PumpLoop α) : Prop :=
  s.didWork = false ∧ (s.state = .polling ∧ s.processedIoEvents = false ∨ s.state.isPolled = true)

/-- What the loop knows of the tasks that wait. -/
structure Vigilant (s : PumpLoop α) : Prop where
  processed : s.state.isPolled = true → s.processedIoEvents = false
  idle : s.state.isIdle = true → s.didWork = false
  running : s.state ≠ .doWork → s.state ≠ .stopped → s.keepRunning = true
  /-- A task that waits has its byte in the pipe, or will have it. -/
  quiet : s.Quiet → s.workQueue = [] ∧ (s.incomingQueue ≠ [] → 0 < s.wakeupPipe ∨ s.posting = some true)
  timer : s.state.isIdle = true → s.delayedWorkTime = s.earliest.getD 0
  asleep : ∀ timer, s.state = .asleep timer → timer = s.earliest

lemma Vigilant.post (h : s.Vigilant) (task : α) (delay now : ℕ) (hposting : s.posting = none) :
    (s.post task delay now).Vigilant := by
  refine ⟨h.processed, h.idle, h.running, ?_, h.timer, h.asleep⟩
  intro hq
  obtain ⟨hw, hwait⟩ := h.quiet hq
  refine ⟨hw, fun _ => ?_⟩
  by_cases hempty : s.incomingQueue = []
  · exact .inr (by simp [PumpLoop.post, hempty])
  · rcases hwait hempty with hpipe | hnone
    · exact .inl hpipe
    · rw [hposting] at hnone
      cases hnone

/-- The byte is written before the lock is given up. -/
lemma Vigilant.posted (h : s.Vigilant) {wasEmpty : Bool} (hcap : 0 < capacity) (hposting : s.posting = some wasEmpty) :
    Vigilant { (if wasEmpty then s.scheduleWork capacity else s) with posting := none } := by
  cases wasEmpty with
  | false =>
    refine ⟨h.processed, h.idle, h.running, ?_, h.timer, h.asleep⟩
    intro hq
    obtain ⟨hw, hwait⟩ := h.quiet hq
    refine ⟨hw, fun hne => .inl ?_⟩
    rcases hwait hne with hpipe | hsome
    · exact hpipe
    · rw [hposting] at hsome
      cases hsome
  | true =>
    rw [if_pos rfl]
    unfold PumpLoop.scheduleWork
    split
    · refine ⟨h.processed, h.idle, h.running, ?_, h.timer, h.asleep⟩
      intro hq
      exact ⟨(h.quiet hq).1, fun _ => .inl (Nat.succ_pos _)⟩
    · refine ⟨h.processed, h.idle, h.running, ?_, h.timer, h.asleep⟩
      intro hq
      refine ⟨(h.quiet hq).1, fun _ => .inl ?_⟩
      show 0 < s.wakeupPipe
      omega

lemma vigilant_of_doWork (hstate : s.state = .doWork ∨ s.state = .stopped) : s.Vigilant := by
  have hidle : s.state.isIdle = false := by
    rcases hstate with hs | hs <;> rw [hs] <;> rfl
  have hpolled : s.state.isPolled = false := by
    rcases hstate with hs | hs <;> rw [hs] <;> rfl
  refine ⟨fun hp => ?_, fun hi => ?_, ?_, ?_, fun hi => ?_, ?_⟩
  · rw [hpolled] at hp
    cases hp
  · rw [hidle] at hi
    cases hi
  · intro h1 h2
    exact absurd hstate (not_or.2 ⟨h1, h2⟩)
  · rintro ⟨-, ⟨hp, -⟩ | hp⟩
    · rw [hp] at hstate
      rcases hstate with hs | hs <;> cases hs
    · rw [hpolled] at hp
      cases hp
  · rw [hidle] at hi
    cases hi
  · intro timer ht
    rw [ht] at hidle
    cases hidle

lemma vigilant_goOn {next : PumpState} (h : s.keepRunning = true → Vigilant { s with state := next }) :
    (s.goOn next).Vigilant := by
  unfold PumpLoop.goOn
  by_cases hrun : s.keepRunning = true
  · rw [if_pos hrun]
    exact h hrun
  · rw [if_neg hrun]
    exact vigilant_of_doWork (.inr rfl)

lemma Vigilant.reloadWorkQueue (hstate : s.state = .doWork) (hw : s.workQueue = []) :
    s.reloadWorkQueue.Vigilant := by
  unfold PumpLoop.reloadWorkQueue
  split
  · rename_i hempty
    refine vigilant_goOn fun hrun => ⟨fun hp => (by cases hp), fun hi => (by cases hi), fun _ _ => hrun, ?_,
      fun hi => (by cases hi), fun _ ht => (by cases ht)⟩
    exact fun _ => ⟨hw, fun hne => absurd hempty hne⟩
  · exact vigilant_of_doWork (.inl hstate)

lemma Vigilant.nextTask [DecidableEq α] {t : PendingTask α} {rest : List (PendingTask α)} (quits : Bool)
    (hstate : s.state = .doWork) : (s.nextTask capacity t rest quits).Vigilant := by
  unfold PumpLoop.nextTask
  by_cases ht : t.delayedRunTime ≠ 0
  · rw [if_pos ht]
    dsimp only
    split
    · exact vigilant_of_doWork (.inl hstate)
    · exact vigilant_of_doWork (.inl hstate)
  · rw [if_neg ht]
    refine vigilant_goOn fun hrun => ⟨fun hp => (by cases hp), fun hi => (by cases hi), fun _ _ => hrun, ?_,
      fun hi => (by cases hi), fun _ h => (by cases h)⟩
    rintro ⟨hdid, -⟩
    cases hdid

/-- What the poll has been told of counts as work. -/
lemma Vigilant.poll (h : s.Vigilant) {wakeup io quits : Bool} (hstate : s.state = .polling)
    (hquits : quits = true → io = true) : (s.poll capacity wakeup io quits).Vigilant := by
  unfold PumpLoop.poll
  obtain ⟨keepRunning, wakeupPipe, he, hle, -⟩ := quit_eq { s with
    wakeupPipe := if wakeup then s.wakeupPipe - 1 else s.wakeupPipe
    processedIoEvents := s.processedIoEvents || wakeup || io } capacity quits
  dsimp only
  rw [he]
  refine vigilant_goOn fun hrun => ⟨fun _ => rfl, fun hi => (by cases hi), fun _ _ => hrun, ?_, fun hi => (by cases hi),
    fun _ ht => (by cases ht)⟩
  rintro ⟨hdid, -⟩
  simp only [Bool.or_eq_false_iff] at hdid
  obtain ⟨hdid, ⟨hprocessed, rfl⟩, rfl⟩ := hdid
  obtain ⟨hw, hwait⟩ := h.quiet ⟨hdid, .inl ⟨hstate, hprocessed⟩⟩
  refine ⟨hw, fun hne => ?_⟩
  rcases hwait hne with hpipe | hposting
  · exact .inl (Nat.lt_of_lt_of_le hpipe hle)
  · exact .inr hposting

/-- Where `DoDelayedWork` has done nothing, the loop knows the time of the first delayed task. -/
lemma Vigilant.undelayed (h : s.Vigilant) (recent clock : ℕ) {time : ℕ} (hstate : s.state = .doDelayedWork)
    (htime : time = s.earliest.getD 0) :
    ({ s with recentTime := recent, clock := clock, delayedWorkTime := time }.goOn
      (if s.didWork then .doWork else .doIdleWork)).Vigilant := by
  have hprocessed : s.processedIoEvents = false := h.processed (by rw [hstate]; rfl)
  refine vigilant_goOn fun hrun => ?_
  cases hdid : s.didWork with
  | true => exact vigilant_of_doWork (.inl rfl)
  | false =>
    have hquiet := h.quiet ⟨hdid, .inr (by rw [hstate]; rfl)⟩
    exact ⟨fun _ => hprocessed, fun _ => rfl, fun _ _ => hrun, fun _ => hquiet, fun _ => htime,
      fun _ ht => (by cases ht)⟩

lemma Vigilant.delayedWork (h : s.Vigilant) (hs : s.Queues) {now : ℕ} (quits : Bool) (hstate : s.state = .doDelayedWork)
    (hnow : s.clock ≤ now) : (s.delayedWork capacity now quits).Vigilant := by
  unfold PumpLoop.delayedWork
  rcases @doDelayedWork_cases α s capacity now quits hs.recent_le hnow with
    ⟨hq, he⟩ | ⟨t, rest, recent, clock, hq, -, -, ⟨-, he⟩ | ⟨-, time, he⟩⟩
  · rw [he]
    simpa using h.undelayed 0 s.clock hstate (show 0 = s.earliest.getD 0 by simp [earliest, hq])
  · rw [he]
    simpa using h.undelayed recent clock hstate (show t.delayedRunTime = s.earliest.getD 0 by simp [earliest, hq])
  · rw [he]
    dsimp only
    rw [Bool.or_true, if_pos rfl]
    exact vigilant_goOn fun _ => vigilant_of_doWork (.inl rfl)

lemma Vigilant.idleWork (h : s.Vigilant) (quits : Bool) (hstate : s.state = .doIdleWork) :
    (s.idleWork capacity quits).Vigilant := by
  have hprocessed : s.processedIoEvents = false := h.processed (by rw [hstate]; rfl)
  have hdid : s.didWork = false := h.idle (by rw [hstate]; rfl)
  have htimer := h.timer (by rw [hstate]; rfl)
  obtain ⟨hw, hwait⟩ := h.quiet ⟨hdid, .inr (by rw [hstate]; rfl)⟩
  unfold PumpLoop.idleWork
  obtain ⟨keepRunning, wakeupPipe, he, hle, -⟩ := quit_eq s capacity quits
  rw [he]
  refine vigilant_goOn fun hrun => ⟨fun _ => hprocessed, fun _ => hdid, fun _ _ => hrun, fun _ => ⟨hw, fun hne => ?_⟩,
    fun _ => htimer, fun _ ht => (by cases ht)⟩
  exact (hwait hne).imp_left fun hpipe => Nat.lt_of_lt_of_le hpipe hle

lemma Vigilant.decide (h : s.Vigilant) (hs : s.Queues) (now : ℕ) (hstate : s.state = .deciding) :
    (s.decide now).Vigilant := by
  have hprocessed : s.processedIoEvents = false := h.processed (by rw [hstate]; rfl)
  have hdid : s.didWork = false := h.idle (by rw [hstate]; rfl)
  have hrun : s.keepRunning = true := h.running (by rw [hstate]; simp) (by rw [hstate]; simp)
  have hquiet := h.quiet ⟨hdid, .inr (by rw [hstate]; rfl)⟩
  have htimer := h.timer (by rw [hstate]; rfl)
  -- a delayed task does not have the time 0, which stands for none
  have hearliest : s.earliest = if s.delayedWorkTime = 0 then none else some s.delayedWorkTime := by
    rw [htimer]
    unfold earliest
    cases hq : s.delayedWorkQueue with
    | nil => rfl
    | cons t rest =>
      have ht := hs.delayed t (by rw [hq]; exact List.mem_cons_self)
      simp [ht]
  unfold PumpLoop.decide
  split
  · rename_i hzero
    rw [if_pos hzero] at hearliest
    refine ⟨fun _ => hprocessed, fun _ => hdid, fun _ _ => hrun, fun _ => hquiet, fun _ => htimer, ?_⟩
    rintro timer ⟨⟩
    exact hearliest.symm
  · rename_i hzero
    rw [if_neg hzero] at hearliest
    split
    · refine ⟨fun _ => hprocessed, fun _ => hdid, fun _ _ => hrun, fun _ => hquiet, fun _ => htimer, ?_⟩
      rintro timer ⟨⟩
      exact hearliest.symm
    · exact vigilant_of_doWork (.inl rfl)

lemma vigilant_wake (wakeup io quits : Bool) (now : ℕ) : (s.wake capacity wakeup io quits now).Vigilant := by
  unfold PumpLoop.wake
  obtain ⟨keepRunning, wakeupPipe, he, -⟩ := quit_eq { s with
    wakeupPipe := if wakeup then s.wakeupPipe - 1 else s.wakeupPipe
    processedIoEvents := s.processedIoEvents || wakeup || io
    clock := now
    state := .doWork } capacity quits
  dsimp only
  rw [he]
  exact vigilant_of_doWork (.inl rfl)

/-- **Every event** keeps the loop vigilant. -/
theorem Vigilant.exec [DecidableEq α] (h : s.Vigilant) (hs : s.Queues) (hcap : 0 < capacity) {e : PumpEvent α}
    (he : e.exec capacity s = some s') : s'.Vigilant := by
  cases e with
  | post task delay now =>
    obtain ⟨⟨hposting, -⟩, he⟩ := Option.ite_none_right_eq_some.1 he
    obtain rfl := Option.some.inj he
    exact h.post task delay now hposting
  | scheduleWork =>
    rw [PumpEvent.exec] at he
    split at he
    · cases he
    · rename_i wasEmpty hposting
      obtain rfl := Option.some.inj he
      exact h.posted hcap hposting
  | reloadWorkQueue =>
    obtain ⟨⟨hstate, hw, -⟩, he⟩ := Option.ite_none_right_eq_some.1 he
    obtain rfl := Option.some.inj he
    exact Vigilant.reloadWorkQueue hstate hw
  | nextTask quits =>
    rw [PumpEvent.exec] at he
    split at he
    · cases he
    · obtain ⟨hstate, he⟩ := Option.ite_none_right_eq_some.1 he
      obtain rfl := Option.some.inj he
      exact Vigilant.nextTask quits hstate
  | poll wakeup io quits =>
    obtain ⟨⟨hstate, -, hquits⟩, he⟩ := Option.ite_none_right_eq_some.1 he
    obtain rfl := Option.some.inj he
    exact h.poll hstate hquits
  | delayedWork now quits =>
    obtain ⟨⟨hstate, hnow⟩, he⟩ := Option.ite_none_right_eq_some.1 he
    obtain rfl := Option.some.inj he
    exact h.delayedWork hs quits hstate hnow
  | idleWork quits =>
    obtain ⟨hstate, he⟩ := Option.ite_none_right_eq_some.1 he
    obtain rfl := Option.some.inj he
    exact h.idleWork quits hstate
  | decide now =>
    obtain ⟨⟨hstate, -⟩, he⟩ := Option.ite_none_right_eq_some.1 he
    obtain rfl := Option.some.inj he
    exact h.decide hs now hstate
  | wake wakeup io timer quits now =>
    rw [PumpEvent.exec] at he
    split at he
    · obtain ⟨-, he⟩ := Option.ite_none_right_eq_some.1 he
      obtain rfl := Option.some.inj he
      exact vigilant_wake wakeup io quits now
    · cases he

/-! ### Runs -/

lemma queues_new : (new α).Queues := ⟨.nil, by simp [new], .refl _, rfl, le_rfl, by simp [new]⟩

/-- **Every run** keeps the tasks in their places. -/
lemma queues_of_run [DecidableEq α] {es : List (PumpEvent α)} (h : Run (Pumps capacity) (new α) es s) : s.Queues :=
  h.inv (P := fun _ s => s.Queues) queues_new fun _ _ _ _ hs he => hs.exec he

/-- **Every run** keeps the loop vigilant. -/
lemma vigilant_of_run [DecidableEq α] (hcap : 0 < capacity) {es : List (PumpEvent α)}
    (h : Run (Pumps capacity) (new α) es s) : s.Vigilant := by
  refine (h.inv (P := fun _ s => s.Queues ∧ s.Vigilant) ?_ ?_).2
  · exact ⟨queues_new, vigilant_of_doWork (.inl rfl)⟩
  · rintro _ s e s' ⟨hq, hv⟩ he
    exact ⟨hq.exec he, hv.exec hq hcap he⟩

/-- **No task is lost**, in any run: every task that was posted has been run, or waits in the heap or in one of the
queues; tasks without a delay run in the order in which they were posted; and no task runs before its time. -/
theorem tasks_accounted [DecidableEq α] {es : List (PumpEvent α)} (h : Run (Pumps capacity) (new α) es s) :
    (s.ran.map Prod.fst ++ s.delayedWorkQueue ++ s.workQueue ++ s.incomingQueue).Perm s.posted ∧
    (s.ran.map Prod.fst).filter PendingTask.isImmediate <+: s.posted.filter PendingTask.isImmediate ∧
    ∀ r ∈ s.ran, r.1.delayedRunTime ≤ r.2 := by
  have hs := queues_of_run h
  refine ⟨hs.places, ?_, hs.due⟩
  rw [← hs.fifo, List.append_assoc, List.filter_append]
  exact List.prefix_append _ _

/-- A task that is posted and run. -/
theorem tasks_accounted_run : ∃ s : PumpLoop ℕ,
    Run (Pumps 1) (new ℕ) [.post 7 0 1, .scheduleWork, .reloadWorkQueue, .nextTask false] s ∧
    (s.ran.map Prod.fst ++ s.delayedWorkQueue ++ s.workQueue ++ s.incomingQueue).Perm s.posted := by
  have h : Run (Pumps 1) (new ℕ) [.post 7 0 1, .scheduleWork, .reloadWorkQueue, .nextTask false]
      ⟨[], 1, none, 1, [], [], 0, 0, true, false, true, .polling, 1, [⟨7, 0, 0⟩], [(⟨7, 0, 0⟩, 1)]⟩ :=
    Run.of_foldlM (f := fun s e => PumpEvent.exec 1 e s) (fun _ _ _ he => he) rfl
  exact ⟨_, h, (tasks_accounted h).1⟩

/-- **No wakeup is lost**, in any run: where the loop sleeps nothing has called `Quit`, its own queue is empty, a task in
the incoming queue has its byte in the wakeup pipe or a thread about to write it, and the timer is set for the first of
the delayed tasks. -/
theorem no_lost_wakeup [DecidableEq α] (hcap : 0 < capacity) {es : List (PumpEvent α)}
    (h : Run (Pumps capacity) (new α) es s) {timer : Option ℕ} (hsleep : s.state = .asleep timer) :
    s.keepRunning = true ∧ s.workQueue = [] ∧
      (s.incomingQueue ≠ [] → 0 < s.wakeupPipe ∨ s.posting = some true) ∧ timer = s.earliest := by
  have hv := vigilant_of_run hcap h
  have hidle : s.state.isIdle = true := by rw [hsleep]; rfl
  have hpolled : s.state.isPolled = true := by rw [hsleep]; rfl
  obtain ⟨hw, hwait⟩ := hv.quiet ⟨hv.idle hidle, .inr hpolled⟩
  exact ⟨hv.running (by rw [hsleep]; simp) (by rw [hsleep]; simp), hw, hwait, hv.asleep timer hsleep⟩

/-- A task in the heap has its timer, and one that is posted while the loop sleeps is about to wake it. -/
theorem no_lost_wakeup_run : ∃ s : PumpLoop ℕ,
    Run (Pumps 1) (new ℕ) [.post 7 5 1, .scheduleWork, .reloadWorkQueue, .nextTask false, .reloadWorkQueue,
      .poll true false false, .delayedWork 2 false, .reloadWorkQueue, .poll false false false, .delayedWork 2 false,
      .idleWork false, .decide 3, .post 8 0 4] s ∧
    s.state = .asleep (some 6) ∧ s.earliest = some 6 ∧ s.posting = some true := by
  have h : Run (Pumps 1) (new ℕ) [.post 7 5 1, .scheduleWork, .reloadWorkQueue, .nextTask false, .reloadWorkQueue,
      .poll true false false, .delayedWork 2 false, .reloadWorkQueue, .poll false false false, .delayedWork 2 false,
      .idleWork false, .decide 3, .post 8 0 4]
      ⟨[⟨8, 0, 1⟩], 2, some true, 0, [], [⟨7, 6, 0⟩], 2, 6, true, false, false, .asleep (some 6), 4,
        [⟨7, 6, 0⟩, ⟨8, 0, 1⟩], []⟩ :=
    Run.of_foldlM (f := fun s e => PumpEvent.exec 1 e s) (fun _ _ _ he => he) rfl
  have hsleep := no_lost_wakeup one_pos h rfl
  refine ⟨_, h, rfl, hsleep.2.2.2.symm, ?_⟩
  exact (hsleep.2.2.1 (List.cons_ne_nil _ _)).resolve_left (Nat.lt_irrefl 0)

end PumpLoop

end Zutils.Net
