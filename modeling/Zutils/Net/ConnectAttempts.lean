import Zutils.Net.ConnectorSpec

/-!
# How many attempts a connector has under way

`TCPConnector::Connect` checks `connect_state_` and then posts a `ReConnect`; the state changes only when that task runs,
on the loop. A thread is here between the check and the post for as long as it likes, while other threads call `Connect`
and the loop runs tasks, and it may have passed the check in the midst of a task: a connection that the delegate refuses
is `kConnectStateInvalid` before it is made `kConnectStateConnected`.

An event other than such a post starts no attempt (`ClientEvent.attempts_le`), and a post starts one more
(`Client.attempts_accept`).
-/

namespace Zutils.Net

open Zutils.Lib

namespace Client

variable (c : Client)

/-- The `ReConnect` tasks that are posted or wait for their time. -/
def pendingReConnects : ℕ := c.posted.count .reConnect + c.delayed

/-- The attempts under way: the tasks, and the one that is connecting or connected. -/
def attempts : ℕ :=
  c.pendingReConnects + if c.connectState = .connecting ∨ c.connectState = .connected then 1 else 0

/-- What `TCPConnector::Connect` does behind its check. -/
def accept (ip port : String) (isNumericHostAddress : Bool) : Client :=
  { c with
    connAddrInfo :=
      { isInited := true, ip, port, isNumericHostAddress, isReconnect := true, reconnectTime := 10 } }.doConnect 0

lemma attempts_le_pendingReConnects : c.attempts ≤ c.pendingReConnects + 1 := by
  unfold attempts
  split <;> omega

lemma attempts_of_invalid (h : c.connectState = .invalid) : c.attempts = c.pendingReConnects := by
  simp [attempts, h]

lemma attempts_eq_zero_iff : c.attempts = 0 ↔
    c.pendingReConnects = 0 ∧ c.connectState ≠ .connecting ∧ c.connectState ≠ .connected := by
  unfold attempts
  rw [Nat.add_eq_zero_iff]
  simp

lemma attempts_doConnect (t : ℤ) : (c.doConnect t).attempts = c.attempts + 1 := by
  unfold doConnect
  split
  · simp only [attempts, pendingReConnects, List.count_append, List.count_singleton_self]
    omega
  · simp only [attempts, pendingReConnects]
    omega

/-- **A call that passed the check starts an attempt.** -/
lemma attempts_accept (ip port : String) (isNumericHostAddress : Bool) :
    (c.accept ip port isNumericHostAddress).attempts = c.attempts + 1 :=
  attempts_doConnect _ 0

lemma attempts_onConnecting : c.onConnecting.attempts = c.attempts := by
  unfold onConnecting
  split
  · rfl
  · split <;> rfl

lemma attempts_onNewConnection (d : ClientSockets) (s : ℤ) (accepts : Bool) :
    ({ c with toClientSockets := d.onNewConnection s accepts } : Client).attempts = c.pendingReConnects + 1 := rfl

/-- **`ReConnect` starts at most one attempt**, which is the one that its task was. -/
lemma attempts_reConnect_le (r : CreateResult) : (c.reConnect r).attempts ≤ c.attempts + 1 := by
  have hle : c.pendingReConnects ≤ c.attempts := Nat.le_add_right _ _
  cases r with
  | failed =>
    apply Nat.le_of_eq
    exact attempts_doConnect _ _
  | connected s accepts =>
    apply Nat.le_trans (Nat.le_of_eq (attempts_onNewConnection c _ _ _))
    exact Nat.add_le_add_right hle 1
  | inProgress s =>
    apply Nat.le_trans (Nat.le_of_eq (attempts_onConnecting _))
    apply Nat.le_trans (attempts_le_pendingReConnects _)
    exact Nat.add_le_add_right hle 1

lemma attempts_onConnected_le (r : ConnectResult) : (c.onConnected r).attempts ≤ c.attempts := by
  unfold onConnected
  split
  · exact Nat.le_refl _
  · rename_i hs
    have hattempts : c.attempts = c.pendingReConnects + 1 := by simp [attempts, not_not.1 hs]
    cases r with
    | inProgress => exact Nat.le_refl _
    | ok accepts => exact Nat.le_of_eq ((attempts_onNewConnection { c with watcher := none } _ _ _).trans hattempts.symm)
    | failed =>
      dsimp only
      rw [attempts_of_invalid _ rfl, hattempts]
      split
      · -- the retry takes the place of the attempt that is over
        unfold doConnect
        split
        · simp [pendingReConnects]
          omega
        · exact Nat.le_of_eq (Nat.add_assoc _ _ _).symm
      · exact Nat.le_add_right _ _

end Client

/-- **Only a `Connect` starts an attempt.** -/
lemma ClientEvent.attempts_le {e : ClientEvent} {c c' : Client}
    (hne : ∀ ip port isNumericHostAddress, e ≠ .connect ip port isNumericHostAddress) (he : e.exec c = some c') :
    c'.attempts ≤ c.attempts := by
  have hinvalid : ∀ d : ClientSockets, d.connectState = .invalid →
      ({ c with toClientSockets := d } : Client).attempts ≤ c.attempts := by
    intro d hd
    rw [Client.attempts_of_invalid _ hd]
    exact Nat.le_add_right _ _
  cases turns_of_exec he with
  | connect ip port isNumericHostAddress => exact absurd rfl (hne ip port isNumericHostAddress)
  | disConnect =>
    unfold Client.disConnect
    split
    · exact Nat.le_refl _
    · simp [Client.attempts, Client.pendingReConnects]
  | reConnect r posted hposted =>
    apply Nat.le_trans (Client.attempts_reConnect_le _ r)
    simp only [Client.attempts, Client.pendingReConnects, hposted, List.count_cons_self]
    omega
  | doClose r posted hposted =>
    rw [Client.attempts_of_invalid _ rfl]
    simp [Client.attempts, Client.pendingReConnects, hposted]
  | runDelayed r hdelayed =>
    apply Nat.le_trans (Client.attempts_reConnect_le _ r)
    simp only [Client.attempts, Client.pendingReConnects]
    omega
  | writable r hwatcher => exact Client.attempts_onConnected_le c r
  | read i h hi hwatched hsocket => exact Nat.le_refl _
  | close i h hi hwatched =>
    apply hinvalid
    rw [ClientSockets.closeHandler_eq hi]
    split <;> rfl
  | destroy => exact hinvalid _ rfl

/-- The delegate refuses a connection in this action, which is then `kConnectStateInvalid` for a while. -/
def SocketAction.Refuses : SocketAction → Prop
  | reConnect (.connected _ accepts) | connected accepts => accepts = false
  | idle | reConnect .failed | reConnect (.inProgress _) | connectFailed | doClose | close _ | destroy => False

instance (a : SocketAction) : Decidable a.Refuses :=
  match a with
  | .reConnect (.connected _ _) | .connected _ => inferInstanceAs (Decidable (_ = _))
  | .idle | .reConnect .failed | .reConnect (.inProgress _) | .connectFailed | .doClose | .close _ | .destroy =>
    inferInstanceAs (Decidable False)

/-- A client, and the threads that are in its connector's `Connect`. -/
structure SharedClient (τ : Type*) where
  client : Client
  /-- The threads that have passed the check of the state and have not posted the task yet. -/
  calling : List τ
  deriving DecidableEq, Repr

/-- What a thread or the loop does. -/
inductive CallEvent (τ : Type*) where
  /-- A thread calls `Connect`, up to the check. -/
  | check (t : τ)
  /-- The rest of the call, which returns true. -/
  | post (t : τ) (ip port : String) (isNumericHostAddress : Bool)
  /-- Any other event; `passing` are the threads whose check falls into its midst and finds `kConnectStateInvalid`. -/
  | other (e : ClientEvent) (passing : List τ)
  deriving DecidableEq, Repr

section Calls

variable {τ : Type*} [DecidableEq τ]

/-- After the constructors. -/
def SharedClient.new : SharedClient τ := ⟨.new, []⟩

namespace CallEvent

/-- The state after an event, when it can happen. -/
def exec (e : CallEvent τ) (s : SharedClient τ) : Option (SharedClient τ) :=
  match e with
  | check t =>
    if s.client.destroyed = true ∨ t ∈ s.calling then none
    else if s.client.connectState ≠ .invalid then some s
    else some { s with calling := t :: s.calling }
  | post t ip port isNumericHostAddress =>
    if s.client.destroyed = true ∨ t ∉ s.calling then none
    else some ⟨s.client.accept ip port isNumericHostAddress, s.calling.erase t⟩
  | other (.connect _ _ _) _ => none
  | other e passing =>
    if passing ≠ [] ∧ ¬ (e.action s.client).Refuses ∨ ¬ (passing ++ s.calling).Nodup then none
    else (e.exec s.client).map (⟨·, passing ++ s.calling⟩)

/-- What the kernel can answer. -/
def Legal : CallEvent τ → SharedClient τ → Prop
  | other e _, s => e.Legal s.client
  | check _, _ | post _ _ _ _, _ => True

/-- A call that passed the check goes on only while no attempt is under way. -/
def Alone : CallEvent τ → SharedClient τ → Prop
  | post _ _ _ _, s =>
    s.client.pendingReConnects = 0 ∧ s.client.connectState ≠ .connecting ∧ s.client.connectState ≠ .connected
  | check _, _ | other _ _, _ => True

instance (e : CallEvent τ) (s : SharedClient τ) : Decidable (e.Legal s) :=
  match e with
  | other _ _ => inferInstanceAs (Decidable (ClientEvent.Legal _ _))
  | check _ | post _ _ _ _ => inferInstanceAs (Decidable True)

instance (e : CallEvent τ) (s : SharedClient τ) : Decidable (e.Alone s) :=
  match e with
  | post _ _ _ _ => inferInstanceAs (Decidable (_ ∧ _ ∧ _))
  | check _ | other _ _ => inferInstanceAs (Decidable True)

end CallEvent

/-- An event happens. -/
def CallHappens (s : SharedClient τ) (e : CallEvent τ) (s' : SharedClient τ) : Prop := e.Legal s ∧ e.exec s = some s'

/-- An event happens that is not a post next to another attempt. -/
def CallHappensAlone (s : SharedClient τ) (e : CallEvent τ) (s' : SharedClient τ) : Prop :=
  CallHappens s e s' ∧ e.Alone s

lemma CallEvent.exec_other {e : ClientEvent} {passing : List τ} {s : SharedClient τ}
    (hne : ∀ ip port isNumericHostAddress, e ≠ .connect ip port isNumericHostAddress) :
    (other e passing).exec s =
      if passing ≠ [] ∧ ¬ (e.action s.client).Refuses ∨ ¬ (passing ++ s.calling).Nodup then none
      else (e.exec s.client).map (⟨·, passing ++ s.calling⟩) := by
  cases e with
  | connect ip port isNumericHostAddress => exact absurd rfl (hne ip port isNumericHostAddress)
  | disConnect => rfl
  | runTask r => rfl
  | runDelayed r => rfl
  | writable r => rfl
  | read i closes => rfl
  | destroy => rfl

lemma CallEvent.client_of_exec {e : CallEvent τ} {s s' : SharedClient τ} (he : e.exec s = some s') :
    (∃ t, e = check t ∧ s'.client = s.client) ∨
    (∃ t ip port isNumericHostAddress, e = post t ip port isNumericHostAddress ∧
      s'.client = s.client.accept ip port isNumericHostAddress) ∨
    ∃ e₁ passing, e = other e₁ passing ∧ (∀ ip port isNumericHostAddress, e₁ ≠ .connect ip port isNumericHostAddress) ∧
      e₁.exec s.client = some s'.client := by
  cases e with
  | check t =>
    left
    obtain ⟨-, he⟩ := Option.ite_none_left_eq_some.1 he
    split at he <;> obtain rfl := Option.some.inj he <;> exact ⟨t, rfl, rfl⟩
  | post t ip port isNumericHostAddress =>
    right; left
    obtain ⟨-, he⟩ := Option.ite_none_left_eq_some.1 he
    obtain rfl := Option.some.inj he
    exact ⟨t, ip, port, isNumericHostAddress, rfl, rfl⟩
  | other e passing =>
    right; right
    have hne : ∀ ip port isNumericHostAddress, e ≠ .connect ip port isNumericHostAddress := by
      rintro ip port isNumericHostAddress rfl
      cases he
    rw [exec_other hne] at he
    obtain ⟨-, he⟩ := Option.ite_none_left_eq_some.1 he
    obtain ⟨c', hc, rfl⟩ := Option.map_eq_some_iff.1 he
    exact ⟨e, passing, rfl, hne, hc⟩

/-- **A post starts an attempt**, and nothing else does. -/
lemma CallEvent.attempts_of_exec {e : CallEvent τ} {s s' : SharedClient τ} (he : e.exec s = some s') :
    (∃ t ip port isNumericHostAddress, e = .post t ip port isNumericHostAddress ∧
      s'.client.attempts = s.client.attempts + 1) ∨
    (∀ s, e.Alone s) ∧ s'.client.attempts ≤ s.client.attempts := by
  rcases client_of_exec he with ⟨t, rfl, heq⟩ | ⟨t, ip, port, isNumericHostAddress, rfl, heq⟩ | ⟨e, passing, rfl, hne, he⟩
  · right
    rw [heq]
    exact ⟨fun _ => trivial, Nat.le_refl _⟩
  · left
    rw [heq]
    exact ⟨t, ip, port, isNumericHostAddress, rfl, Client.attempts_accept _ _ _ _⟩
  · right
    exact ⟨fun _ => trivial, ClientEvent.attempts_le hne he⟩

/-- **At most one attempt** is under way in every state of every run whose calls go on only while none is, and the next
event keeps it so if and only if it is not a post next to another attempt. -/
theorem one_attempt {es : List (CallEvent τ)} {s : SharedClient τ} (h : Run CallHappensAlone .new es s) :
    s.client.attempts ≤ 1 ∧ ∀ e s', CallHappens s e s' → (s'.client.attempts ≤ 1 ↔ e.Alone s) := by
  have hstep : ∀ {s s' : SharedClient τ} {e : CallEvent τ}, s.client.attempts ≤ 1 → CallHappens s e s' →
      (s'.client.attempts ≤ 1 ↔ e.Alone s) := by
    rintro s s' e hle ⟨-, he⟩
    rcases CallEvent.attempts_of_exec he with ⟨t, ip, port, isNumericHostAddress, rfl, heq⟩ | ⟨halone, hle'⟩
    · rw [heq]
      exact Nat.succ_le_succ_iff.trans (Nat.le_zero.trans s.client.attempts_eq_zero_iff)
    · exact iff_of_true (Nat.le_trans hle' hle) (halone s)
  have hinv : s.client.attempts ≤ 1 := by
    refine h.inv (P := fun _ s => s.client.attempts ≤ 1) (Nat.zero_le 1) ?_
    rintro es s e s' hle ⟨he, halone⟩
    exact (hstep hle he).2 halone
  exact ⟨hinv, fun e s' he => hstep hinv he⟩

end Calls

/-- The connect that a first call started fails and is tried again; a second call comes after that connection. -/
theorem one_attempt_run : ∃ s : SharedClient ℕ,
    Run CallHappensAlone .new [.check 1, .post 1 "10.0.0.1" "80" true, .other (.runTask (.inProgress 5)) [], .check 2,
      .other (.writable .failed) [], .other (.runDelayed (.connected 6 true)) [], .other (.read 0 true) [], .check 2,
      .post 2 "10.0.0.1" "80" true] s ∧
    s.client.attempts ≤ 1 ∧ ∀ e s', CallHappens s e s' → (s'.client.attempts ≤ 1 ↔ e.Alone s) := by
  have h : Run CallHappensAlone (.new : SharedClient ℕ) [.check 1, .post 1 "10.0.0.1" "80" true,
      .other (.runTask (.inProgress 5)) [], .check 2, .other (.writable .failed) [],
      .other (.runDelayed (.connected 6 true)) [], .other (.read 0 true) [], .check 2,
      .post 2 "10.0.0.1" "80" true] _ :=
    Run.of_guarded (fun e s => e.Legal s ∧ e.Alone s) CallEvent.exec (fun _ _ _ hg he => ⟨⟨hg.1, he⟩, hg.2⟩) rfl
  exact ⟨_, h, one_attempt h⟩

/-- **Two calls in a row** both return true, and two attempts are under way. -/
theorem two_attempts : ∃ s : SharedClient ℕ,
    Run CallHappens .new [.check 1, .post 1 "10.0.0.1" "80" true, .check 2, .post 2 "10.0.0.1" "80" true] s ∧
    s.client.pendingReConnects = 2 ∧ ¬ s.client.attempts ≤ 1 := by
  have h : Run CallHappens (.new : SharedClient ℕ)
      [.check 1, .post 1 "10.0.0.1" "80" true, .check 2, .post 2 "10.0.0.1" "80" true] _ :=
    Run.of_guarded CallEvent.Legal CallEvent.exec (fun _ _ _ hlegal he => ⟨hlegal, he⟩) rfl
  exact ⟨_, h, rfl, by decide⟩

end Zutils.Net
