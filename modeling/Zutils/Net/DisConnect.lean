import Zutils.Net.ConnectAttempts
import Mathlib.Data.Fintype.EquivFin

/-!
# What a disconnect ends

`TCPConnector::DisConnect` should end the attempt that is under way: return true, and once the `DoClose` that it posts
has run, leave no socket and make none until the next `Connect` (`Client.DisConnectsForGood`). It never does
(`disConnect_not_for_good`). It refuses every state but `kConnectStateInvalid`, so that an attempt with a socket goes
on. An attempt without one is a `ReConnect`, which nothing takes back: it can fail in front of the `DoClose`, and then
it is delayed and makes a socket behind it.
-/

namespace Zutils.Net

open Zutils.Lib

/-- An event happens that is not a `Connect` that is accepted. -/
def HappensQuiet (c : Client) (e : ClientEvent) (c' : Client) : Prop :=
  Happens c e c' ∧ ∀ ip port isNumericHostAddress, e = .connect ip port isNumericHostAddress → c.connectState ≠ .invalid

/-- The loop runs a task. -/
def ClientEvent.isTask : ClientEvent → Bool
  | runTask _ => true
  | connect _ _ _ | disConnect | runDelayed _ | writable _ | read _ _ | destroy => false

/-- `DisConnect()` returns true, and once the task behind those that are posted has run, the connector stays in
`kConnectStateInvalid` without an open socket, and creates none, until the next `Connect` that is accepted. -/
def Client.DisConnectsForGood (c : Client) : Prop :=
  c.disConnect.2 = true ∧
  ∀ es c₁ fs c₂, Run HappensQuiet c.disConnect.1 es c₁ → es.countP (·.isTask) = c.posted.length + 1 →
    Run HappensQuiet c₁ fs c₂ → c₂.connectState = .invalid ∧ c₂.openFds = [] ∧ c₂.returned = c₁.returned

/-! ### Retries are delayed -/

/-- An attempt under way was started by `Connect`, which sets the time that a retry waits. -/
def Client.Retries (c : Client) : Prop := c.attempts ≠ 0 → c.connAddrInfo.reconnectTime ≠ 0

namespace Client

variable (c : Client)

lemma doConnect_connAddrInfo (t : ℤ) : (c.doConnect t).connAddrInfo = c.connAddrInfo := by
  unfold doConnect
  split <;> rfl

lemma onConnecting_connAddrInfo : c.onConnecting.connAddrInfo = c.connAddrInfo := by
  unfold onConnecting
  split
  · rfl
  · split <;> rfl

lemma reConnect_connAddrInfo (r : CreateResult) : (c.reConnect r).connAddrInfo = c.connAddrInfo := by
  cases r with
  | failed => exact doConnect_connAddrInfo _ _
  | connected s accepts => rfl
  | inProgress s => exact onConnecting_connAddrInfo _

lemma onConnected_connAddrInfo (r : ConnectResult) : (c.onConnected r).connAddrInfo = c.connAddrInfo := by
  unfold onConnected
  split
  · rfl
  · cases r with
    | inProgress => rfl
    | ok accepts => rfl
    | failed =>
      dsimp only
      split
      · exact doConnect_connAddrInfo _ _
      · rfl

end Client

lemma ClientEvent.connAddrInfo_eq {e : ClientEvent} {c c' : Client}
    (hne : ∀ ip port isNumericHostAddress, e ≠ .connect ip port isNumericHostAddress) (he : e.exec c = some c') :
    c'.connAddrInfo = c.connAddrInfo := by
  cases turns_of_exec he with
  | connect ip port isNumericHostAddress => exact absurd rfl (hne ip port isNumericHostAddress)
  | disConnect =>
    unfold Client.disConnect
    split <;> rfl
  | reConnect r posted hposted => exact Client.reConnect_connAddrInfo _ r
  | doClose r posted hposted => rfl
  | runDelayed r hdelayed => exact Client.reConnect_connAddrInfo _ r
  | writable r hwatcher => exact Client.onConnected_connAddrInfo c r
  | read i h hi hwatched hsocket => rfl
  | close i h hi hwatched => rfl
  | destroy => rfl

/-- Every attempt waits before it is tried again. -/
lemma retries_of_run {τ : Type*} [DecidableEq τ] {es : List (CallEvent τ)} {s : SharedClient τ}
    (h : Run CallHappens .new es s) : s.client.Retries := by
  refine h.inv (P := fun _ s => s.client.Retries) (fun hne => absurd rfl hne) ?_
  rintro es s e s' hretries ⟨-, he⟩
  rcases CallEvent.client_of_exec he with ⟨t, rfl, heq⟩ | ⟨t, ip, port, isNumericHostAddress, rfl, heq⟩ |
    ⟨e, passing, rfl, hne, he⟩
  · rwa [heq]
  · intro _
    rw [heq, Client.accept, Client.doConnect_connAddrInfo]
    exact (by decide : (10 : ℤ) ≠ 0)
  · intro hattempts
    rw [ClientEvent.connAddrInfo_eq hne he]
    apply hretries
    intro hzero
    have hle := ClientEvent.attempts_le hne he
    omega

/-! ### The tasks in front of the close -/

lemma failing_task {c : Client} {p : ConnectorTask} {ps : List ConnectorTask} (hposted : c.posted = p :: ps)
    (hlive : c.destroyed = false) (htime : c.connAddrInfo.reconnectTime ≠ 0) : ∃ c' : Client,
    HappensQuiet c (.runTask .failed) c' ∧ c'.posted = ps ∧ c'.destroyed = false ∧
      c'.connAddrInfo = c.connAddrInfo ∧ c'.delayed = c.delayed + [p].count .reConnect := by
  have hquiet : ∀ {c' : Client}, (ClientEvent.runTask .failed).exec c = some c' →
      HappensQuiet c (.runTask .failed) c' :=
    fun he => ⟨⟨trivial, he⟩, fun _ _ _ h => ClientEvent.noConfusion h⟩
  cases p with
  | reConnect =>
    have he : (ClientEvent.runTask .failed).exec c = some (({ c with posted := ps } : Client).reConnect .failed) := by
      simp [ClientEvent.exec, hlive, hposted]
    refine ⟨_, hquiet he, ?_⟩
    simp [Client.reConnect, Client.doConnect, htime, hlive]
  | doClose =>
    have he : (ClientEvent.runTask .failed).exec c =
        some { c with posted := ps, toClientSockets := c.doClose true } := by
      simp [ClientEvent.exec, hlive, hposted]
    exact ⟨_, hquiet he, rfl, hlive, rfl, rfl⟩

/-- **Every task runs**, and those that are a `ReConnect` are delayed. -/
lemma failing_tasks {c : Client} {ps : List ConnectorTask} (hposted : c.posted = ps) (hlive : c.destroyed = false)
    (htime : c.connAddrInfo.reconnectTime ≠ 0) : ∃ c' : Client,
    Run HappensQuiet c (List.replicate ps.length (.runTask .failed)) c' ∧ c'.posted = [] ∧ c'.destroyed = false ∧
      c'.delayed = c.delayed + ps.count .reConnect := by
  induction ps generalizing c with
  | nil => exact ⟨c, .nil, hposted, hlive, rfl⟩
  | cons p ps ih =>
    obtain ⟨c₁, hstep, hposted₁, hlive₁, hinfo, hdelayed₁⟩ := failing_task hposted hlive htime
    rw [← hinfo] at htime
    obtain ⟨c', hrun, hposted', hlive', hdelayed'⟩ := ih hposted₁ hlive₁ htime
    refine ⟨c', ?_, hposted', hlive', ?_⟩
    · exact (Run.nil.snoc hstep).append hrun
    · rw [hdelayed', hdelayed₁, Nat.add_assoc, ← List.count_append]
      rfl

lemma ClientSockets.exists_fresh (c : ClientSockets) : ∃ s, c.Fresh s := by
  obtain ⟨s, hs⟩ := Infinite.exists_notMem_finset (c.openFds.map Int.toNat).toFinset
  refine ⟨(s : ℤ), Int.natCast_nonneg s, ?_⟩
  intro hmem
  apply hs
  rw [List.mem_toFinset]
  exact List.mem_map.2 ⟨s, hmem, Int.toNat_natCast s⟩

/-- **A disconnect is never final**: whatever attempt is under way in a state that is reached, `DisConnect` does not end
it for good. -/
theorem disConnect_not_for_good {τ : Type*} [DecidableEq τ] {es : List (CallEvent τ)} {s : SharedClient τ}
    (h : Run CallHappens .new es s) (hlive : s.client.destroyed = false) (hattempt : s.client.attempts ≠ 0) :
    ¬ s.client.DisConnectsForGood := by
  have htime := retries_of_run h hattempt
  generalize s.client = c at hlive hattempt htime
  rintro ⟨htrue, hfinal⟩
  have hinvalid : c.connectState = .invalid := by
    by_contra hne
    simp [Client.disConnect, hne] at htrue
  rw [Client.attempts_of_invalid _ hinvalid, Client.pendingReConnects] at hattempt
  have hclose : c.disConnect.1 = { c with posted := c.posted ++ [.doClose] } := by simp [Client.disConnect, hinvalid]
  rw [hclose] at hfinal
  -- the tasks up to the close fail, and an attempt is left that waits for its time
  obtain ⟨c₁, hrun, -, hlive₁, hdelayed⟩ := failing_tasks
    (c := { c with posted := c.posted ++ [.doClose] }) rfl hlive htime
  obtain ⟨fd, hfd⟩ := c₁.exists_fresh
  have hstep : HappensQuiet c₁ (.runDelayed (.inProgress fd))
      (({ c₁ with delayed := c₁.delayed - 1 } : Client).reConnect (.inProgress fd)) := by
    refine ⟨⟨hfd, ?_⟩, fun _ _ _ h => ClientEvent.noConfusion h⟩
    have hpos : c₁.delayed ≠ 0 := by
      rw [hdelayed]
      simp at hattempt ⊢
      omega
    simp [ClientEvent.exec, hlive₁, hpos]
  have hcount : (List.replicate (c.posted ++ [ConnectorTask.doClose]).length (ClientEvent.runTask .failed)).countP (·.isTask) =
      c.posted.length + 1 := by
    rw [List.countP_replicate, List.length_append]
    rfl
  obtain ⟨-, -, hreturned⟩ := hfinal _ c₁ _ _ hrun hcount (Run.nil.snoc hstep)
  rw [(Client.reConnect_eq _ _).1] at hreturned
  exact absurd hreturned (by simp [SocketAction.perform, ClientSockets.createSocket])

/-- An attempt waits to be tried again. -/
theorem disConnect_not_for_good_retry : ∃ s : SharedClient ℕ,
    Run CallHappens .new [.check 1, .post 1 "10.0.0.1" "80" true, .other (.runTask .failed) []] s ∧
    s.client.disConnect.2 = true ∧ ¬ s.client.DisConnectsForGood := by
  have h : Run CallHappens (.new : SharedClient ℕ)
      [.check 1, .post 1 "10.0.0.1" "80" true, .other (.runTask .failed) []] _ :=
    Run.of_guarded CallEvent.Legal CallEvent.exec (fun _ _ _ hlegal he => ⟨hlegal, he⟩) rfl
  exact ⟨_, h, rfl, disConnect_not_for_good h rfl (by decide)⟩

/-- **A connection stays**: `DisConnect` refuses it. -/
theorem disConnect_refuses_connection : ∃ s : SharedClient ℕ,
    Run CallHappens .new [.check 1, .post 1 "10.0.0.1" "80" true, .other (.runTask (.connected 5 true)) []] s ∧
    s.client.attempts = 1 ∧ s.client.disConnect = (s.client, false) ∧ ¬ s.client.DisConnectsForGood := by
  have h : Run CallHappens (.new : SharedClient ℕ)
      [.check 1, .post 1 "10.0.0.1" "80" true, .other (.runTask (.connected 5 true)) []] _ :=
    Run.of_guarded CallEvent.Legal CallEvent.exec (fun _ _ _ hlegal he => ⟨hlegal, he⟩) rfl
  refine ⟨_, h, rfl, rfl, ?_⟩
  rintro ⟨htrue, -⟩
  cases htrue

end Zutils.Net
