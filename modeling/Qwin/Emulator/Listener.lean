import Qwin.Emulator.Server
import Qwin.Library.Run

/-!
`listenForConnections` of modules_1: a worker thread that starts one receive and
one report in each minute, whatever became of the receives before.
-/

set_option autoImplicit false

namespace Qwin.Modules1
open Runs

inductive Completion where
  | received (sender : Endpoint) (payload : List UInt8)
  | failed
  deriving DecidableEq, Repr

/-- One `async_receive_from` whose handler has not returned, with the copies its
handler captured. They are taken when the receive is started. -/
structure Receive where
  buffer : Buffer
  senderEndpoint : Endpoint
  result : Option Completion
  deriving DecidableEq

/-- `buffer` is the worker's own array, which every receive writes to. A report
is pending until its `async_resolve` answers. -/
structure Listener where
  emulator : ServerEmulator
  worker : Bool
  buffer : Buffer
  receives : List Receive
  reports : Nat
  deriving DecidableEq

/-- A `udp::endpoint()` that nothing was written to. -/
def unsetEndpoint : Endpoint := ⟨"0.0.0.0", 0⟩

def ServerEmulator.listenForConnections (s : ServerEmulator) (buffer : Buffer) : Listener :=
  if !s.bound then ⟨s, false, buffer, [], 0⟩ else ⟨s, true, buffer, [], 0⟩

def Buffer.get (buffer : Buffer) (i : Fin 1400) : UInt8 :=
  buffer.val.get (i.cast buffer.property.symm)

/-- An operand of type `uint8_t` is promoted to `int`. -/
def promoted (b : UInt8) : Int := b.toNat

/-- A character literal has type `char`, which is signed. -/
def charLiteral (c : UInt8) : Int := c.toInt8.toInt

/-- `bytesReceived`: what fits into the array of 1400 bytes. -/
def Completion.bytesReceived : Completion → Nat
  | .received _ payload => (payload.take 1400).length
  | .failed => 0

def Receive.completionHandler (r : Receive) (c : Completion) : Option Occasion :=
  if c ≠ .failed ∧ c.bytesReceived > 0 then
    if promoted (r.buffer.get 0) = charLiteral 0xFF ∧ promoted (r.buffer.get 1) = charLiteral 0xFF ∧
        promoted (r.buffer.get 2) = charLiteral 0xFF ∧
        promoted (r.buffer.get 3) = charLiteral 0xFF then
      if promoted (r.buffer.get 4) = charLiteral 0x69 then some (.infoRequest r.senderEndpoint)
      else if promoted (r.buffer.get 4) = charLiteral 0x70 then
        some (.playerRequest r.senderEndpoint)
      else none
    else none
  else none

def Buffer.write (buffer : Buffer) (payload : List UInt8) : Buffer :=
  ⟨payload.take 1400 ++ buffer.val.drop (payload.take 1400).length, by
    have hlen := buffer.property
    simp only [List.length_append, List.length_take, List.length_drop]
    omega⟩

inductive Action where
  /-- A minute begins, and with it an iteration of the worker's loop, if there is a worker. -/
  | minute
  | deliver (i : Nat) (sender : Endpoint) (payload : List UInt8)
  | fail (i : Nat)
  | handle (i : Nat) (env : Surroundings)
  | report (env : Surroundings)

inductive Event where
  | silent
  | handled (c : Completion) (call : Option Occasion) (sent : Option Outgoing)
  | reported (sent : Option Outgoing)
  deriving DecidableEq, Repr

def Listener.finish (s : Listener) (i : Nat) (c : Completion) : Option Listener :=
  match s.receives[i]? with
  | some ⟨buffer, senderEndpoint, none⟩ =>
    some { s with receives := s.receives.set i ⟨buffer, senderEndpoint, some c⟩ }
  | _ => none

def Listener.step (s : Listener) : Action → Option (Event × Listener)
  | .minute =>
    if s.worker then
      some (.silent,
        { s with
          receives := s.receives ++ [⟨s.buffer, unsetEndpoint, none⟩]
          reports := s.reports + 1 })
    else some (.silent, s)
  | .deliver i sender payload =>
    (Listener.finish { s with buffer := s.buffer.write payload } i (.received sender payload)).map
      (.silent, ·)
  | .fail i => (s.finish i .failed).map (.silent, ·)
  | .handle i env =>
    match s.receives[i]? with
    | some ⟨buffer, senderEndpoint, some c⟩ =>
      let call := Receive.completionHandler ⟨buffer, senderEndpoint, some c⟩ c
      some (.handled c call (call.bind (s.emulator.send env)),
        { s with receives := s.receives.eraseIdx i })
    | _ => none
  | .report env =>
    if 0 < s.reports then
      some (.reported (s.emulator.send env .heartbeat), { s with reports := s.reports - 1 })
    else none

abbrev ListenerStep := Transition Listener Action Event

def Action.isMinute : Action → Bool
  | .minute => true
  | _ => false

def Action.isHandle : Action → Bool
  | .handle _ _ => true
  | _ => false

def Action.isReport : Action → Bool
  | .report _ => true
  | _ => false

def minutes (tr : List ListenerStep) : Nat := tr.countP fun t => t.input.isMinute

def returns (tr : List ListenerStep) : Nat := tr.countP fun t => t.input.isHandle

theorem finish_eq_some {s s' : Listener} {i : Nat} {c : Completion} (h : s.finish i c = some s') :
    ∃ r, s.receives[i]? = some r ∧ r.result = none ∧
      s' = { s with receives := s.receives.set i { r with result := some c } } := by
  unfold Listener.finish at h
  split at h
  · rename_i buffer senderEndpoint hr
    cases h
    exact ⟨_, hr, rfl, rfl⟩
  · cases h

/-- What a handler run is about: a completed receive, which it takes away. -/
theorem step_handle {s s' : Listener} {i : Nat} {env : Surroundings} {event : Event}
    (h : s.step (.handle i env) = some (event, s')) :
    ∃ r c, s.receives[i]? = some r ∧ r.result = some c ∧
      event = .handled c (r.completionHandler c)
        ((r.completionHandler c).bind (s.emulator.send env)) ∧
      s' = { s with receives := s.receives.eraseIdx i } := by
  unfold Listener.step at h
  dsimp only at h
  split at h
  · rename_i buffer senderEndpoint c hr
    cases h
    exact ⟨_, c, hr, rfl, rfl, rfl⟩
  · cases h

/-- What a receive completed with in the step. -/
def completed (t : ListenerStep) : List Completion :=
  match t.input with
  | .deliver _ sender payload => [.received sender payload]
  | .fail _ => [.failed]
  | _ => []

/-- What a step does. -/
inductive ListenerMove (t : ListenerStep) : Prop where
  | idle (hin : t.input = .minute) (hworker : t.pre.worker = false) (hout : t.output = .silent)
      (hpost : t.post = t.pre)
  | starts (hin : t.input = .minute) (hworker : t.pre.worker = true) (hout : t.output = .silent)
      (hpost : t.post = { t.pre with
        receives := t.pre.receives ++ [⟨t.pre.buffer, unsetEndpoint, none⟩]
        reports := t.pre.reports + 1 })
  | completes (i : Nat) (r : Receive) (c : Completion) (buffer : Buffer)
      (hin : t.input.isMinute = false ∧ t.input.isHandle = false ∧ t.input.isReport = false)
      (hcompleted : completed t = [c]) (hr : t.pre.receives[i]? = some r)
      (hnone : r.result = none) (hout : t.output = .silent)
      (hpost : t.post = { t.pre with
        buffer := buffer, receives := t.pre.receives.set i { r with result := some c } })
  | handles (i : Nat) (env : Surroundings) (r : Receive) (c : Completion)
      (hin : t.input = .handle i env) (hr : t.pre.receives[i]? = some r)
      (hc : r.result = some c)
      (hout : t.output = .handled c (r.completionHandler c)
        ((r.completionHandler c).bind (t.pre.emulator.send env)))
      (hpost : t.post = { t.pre with receives := t.pre.receives.eraseIdx i })
  | reports (env : Surroundings) (hin : t.input = .report env) (hsome : 0 < t.pre.reports)
      (hout : t.output = .reported (t.pre.emulator.send env .heartbeat))
      (hpost : t.post = { t.pre with reports := t.pre.reports - 1 })

theorem step_move {t : ListenerStep} (ht : t.pre.step t.input = some (t.output, t.post)) :
    ListenerMove t := by
  obtain ⟨s, input, output, s'⟩ := t
  dsimp only at ht
  cases input with
  | minute =>
    unfold Listener.step at ht
    dsimp only at ht
    split at ht
    · rename_i hworker
      cases ht
      exact .starts rfl hworker rfl rfl
    · rename_i hworker
      cases ht
      exact .idle rfl (Bool.eq_false_iff.mpr hworker) rfl rfl
  | deliver i sender payload =>
    obtain ⟨s₁, hs₁, heq⟩ := Option.map_eq_some_iff.mp ht
    cases heq
    obtain ⟨r, hr, hnone, rfl⟩ := finish_eq_some hs₁
    exact .completes i r _ _ ⟨rfl, rfl, rfl⟩ rfl hr hnone rfl rfl
  | fail i =>
    obtain ⟨s₁, hs₁, heq⟩ := Option.map_eq_some_iff.mp ht
    cases heq
    obtain ⟨r, hr, hnone, rfl⟩ := finish_eq_some hs₁
    exact .completes i r _ _ ⟨rfl, rfl, rfl⟩ rfl hr hnone rfl rfl
  | handle i env =>
    obtain ⟨r, c, hr, hc, hout, hpost⟩ := step_handle ht
    exact .handles i env r c rfl hr hc hout hpost
  | report env =>
    unfold Listener.step at ht
    dsimp only at ht
    split at ht
    · rename_i hsome
      cases ht
      exact .reports env rfl hsome rfl rfl
    · cases ht

section Steps
variable {t : ListenerStep}

theorem step_receives (ht : t.pre.step t.input = some (t.output, t.post)) :
    t.post.worker = t.pre.worker ∧
      t.post.receives.length + (if t.input.isHandle then 1 else 0) =
        t.pre.receives.length + (if t.pre.worker && t.input.isMinute then 1 else 0) := by
  cases step_move ht with
  | idle hin hworker _ hpost | starts hin hworker _ hpost =>
    rw [hpost]
    simp [hin, hworker, Action.isHandle, Action.isMinute]
  | completes i r c buffer hin _ _ _ _ hpost =>
    rw [hpost]
    simp [hin]
  | handles i env r c hin hr _ _ hpost =>
    obtain ⟨hi, -⟩ := List.getElem?_eq_some_iff.mp hr
    rw [hpost, hin]
    simp only [Action.isHandle, Action.isMinute, Bool.and_false, Bool.false_eq_true, if_true,
      if_false, List.length_eraseIdx, hi, true_and]
    omega
  | reports env hin _ _ hpost =>
    rw [hpost]
    simp [hin, Action.isHandle, Action.isMinute]

theorem run_receives {s : Listener} {tr : List ListenerStep} (hrun : IsRun Listener.step s tr) :
    (final s tr).worker = s.worker ∧
      (final s tr).receives.length + returns tr =
        s.receives.length + if s.worker then minutes tr else 0 := by
  refine hrun.history (fun hist u => u.worker = s.worker ∧
    u.receives.length + returns hist =
      s.receives.length + if s.worker then minutes hist else 0) ?_ ?_
  · simp [returns, minutes]
  · rintro hist t ⟨hworker, hcount⟩ ht
    obtain ⟨hworker', hcount'⟩ := step_receives ht
    refine ⟨hworker'.trans hworker, ?_⟩
    rw [hworker] at hcount'
    simp only [returns, minutes, List.countP_append, List.countP_singleton] at hcount ⊢
    cases hs : s.worker with
    | false =>
      simp only [hs, Bool.false_and, Bool.false_eq_true, if_false] at hcount hcount' ⊢
      omega
    | true =>
      simp only [hs, Bool.true_and, if_true] at hcount hcount' ⊢
      omega

end Steps

/-- One receive is on the socket, or has its handler still to return. -/
def OneReceive (s : Listener) : Prop := s.receives.length = 1

section Listening
variable {s : ServerEmulator} {buffer : Buffer} {tr : List ListenerStep}

theorem listening_receives (hrun : IsRun Listener.step (s.listenForConnections buffer) tr) :
    (final (s.listenForConnections buffer) tr).receives.length + returns tr =
      if s.bound then minutes tr else 0 := by
  have hcount := (run_receives hrun).2
  unfold ServerEmulator.listenForConnections at hcount ⊢
  cases hbound : s.bound <;> simpa [hbound] using hcount

/-- A handler that returned took away a receive, and no other was there for it. -/
theorem no_returns (hrun : IsRun Listener.step (s.listenForConnections buffer) tr)
    (hall : ∀ hist, hist <+: tr → 0 < minutes hist →
      OneReceive (final (s.listenForConnections buffer) hist)) : returns tr = 0 := by
  refine List.countP_eq_zero.mpr fun t ht hhandle => ?_
  obtain ⟨before, after, rfl, hbefore, hpre, hstep⟩ := hrun.split ht
  obtain ⟨-, hlost⟩ := step_receives hstep
  have hthere := listening_receives hbefore
  have hminute : t.input.isMinute = false := by
    cases hin : t.input <;> simp [hin, Action.isHandle, Action.isMinute] at hhandle ⊢
  simp only [hhandle, hminute, Bool.and_false, Bool.false_eq_true, if_true, if_false] at hlost
  rw [← hpre] at hthere
  -- a handler that runs has a receive to take, so a minute had begun
  have hmany : 0 < minutes before := by
    split at hthere <;> omega
  have hone := hall before ⟨t :: after, rfl⟩ hmany
  have hone' := hall (before ++ [t]) ⟨after, by simp⟩ (by
    simp only [minutes, List.countP_append] at hmany ⊢
    omega)
  simp only [OneReceive, ← hpre, final_append, final] at hone hone'
  omega

/-- From the first minute on there is one receive exactly when the flag was set,
no second minute began and no handler has returned. -/
theorem one_receive_iff (hrun : IsRun Listener.step (s.listenForConnections buffer) tr)
    (hfirst : 0 < minutes tr) :
    (∀ hist, hist <+: tr → 0 < minutes hist →
        OneReceive (final (s.listenForConnections buffer) hist)) ↔
      s.bound = true ∧ minutes tr = 1 ∧ returns tr = 0 := by
  constructor
  · intro hall
    have hreturns := no_returns hrun hall
    have hone := hall tr (List.prefix_refl tr) hfirst
    have hlen := listening_receives hrun
    rw [hone, hreturns] at hlen
    cases hbound : s.bound with
    | false =>
      rw [hbound] at hlen
      cases hlen
    | true =>
      rw [hbound] at hlen
      exact ⟨rfl, hlen.symm, hreturns⟩
  · rintro ⟨hbound, hminutes, hreturns⟩ hist hpre hsome
    have hlen := listening_receives (hrun.upTo hpre)
    have hle : minutes hist ≤ minutes tr := hpre.sublist.countP_le
    have hle' : returns hist ≤ returns tr := hpre.sublist.countP_le
    rw [if_pos hbound] at hlen
    unfold OneReceive
    omega

end Listening

/-- The constructor leaves the flag unset and nothing sets it later, so an
emulator on which `listenForConnections` was called starts no receive at all. -/
theorem constructed_never_listens {socketOpens : Bool} {ip : List UInt8} {port : Int32}
    {config : Config} {s : ServerEmulator}
    (hnew : ServerEmulator.new socketOpens ip port config = some s)
    {buffer : Buffer} {tr : List ListenerStep}
    (hrun : IsRun Listener.step (s.listenForConnections buffer) tr) (hfirst : 0 < minutes tr) :
    ¬ ∀ hist, hist <+: tr → 0 < minutes hist →
      OneReceive (final (s.listenForConnections buffer) hist) := by
  rw [one_receive_iff hrun hfirst]
  rintro ⟨hbound, -⟩
  unfold ServerEmulator.new at hnew
  split at hnew
  · cases hnew
    cases hbound
  · cases hnew

def sampleConfig : Config :=
  ⟨[], 27011, [97, 98], [], 3, 16, 48, [[97]]⟩

def localServer : ServerEmulator :=
  ⟨sampleConfig, [49, 50, 55, 46, 48, 46, 48, 46, 49], 27015, false⟩

def twoMinutes : List ListenerStep :=
  trace Listener.step (localServer.listenForConnections clearedBuffer) [.minute, .minute]

theorem constructed_never_listens_two :
    ¬ ∀ hist, hist <+: twoMinutes → 0 < minutes hist →
      OneReceive (final (localServer.listenForConnections clearedBuffer) hist) := by
  have hnew : ServerEmulator.new true localServer.ip 27015 sampleConfig = some localServer := rfl
  exact constructed_never_listens hnew (isRun_trace _ _) (by decide)

theorem nothing_is_received :
    ServerEmulator.new true localServer.ip 27015 sampleConfig = some localServer ∧
    IsRun Listener.step (localServer.listenForConnections clearedBuffer) twoMinutes ∧
    minutes twoMinutes = 2 ∧
    (final (localServer.listenForConnections clearedBuffer) twoMinutes).worker = false ∧
    ¬ OneReceive (final (localServer.listenForConnections clearedBuffer) twoMinutes) := by
  refine ⟨rfl, isRun_trace _ _, by decide, rfl, ?_⟩
  unfold OneReceive
  decide

end Qwin.Modules1
