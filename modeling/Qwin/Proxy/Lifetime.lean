import Qwin.Library.Ledger
import Qwin.Proxy.Calls
import Qwin.Proxy.Refinement

/-!
What passes through a started proxy: no datagram and no send is lost or doubled on
its way. Every port is good for two datagrams, so there is an end to all of it.
-/

set_option autoImplicit false

namespace Qwin
open Runs

/-- What a receive completed with, and the port it was started for. -/
abbrev Arrival := Int × Completion

def arrivalAt (s : UdpProxy) (i : Nat) (c : Completion) : List Arrival :=
  (s.receives[i]?.map fun r => (r.port, c)).toList

def arrived (t : ProxyStep) : List Arrival :=
  match t.input with
  | .deliver i d => arrivalAt t.pre i (.received d)
  | .fail i aborted => arrivalAt t.pre i (.failed aborted)
  | _ => []

def handledArrival (t : ProxyStep) : List Arrival :=
  match t.output with
  | .handled port c _ _ _ => [(port, c)]
  | _ => []

/-- Completions whose handlers have still to run. -/
def UdpProxy.waiting (s : UdpProxy) : List Arrival :=
  s.receives.flatMap fun r => (r.result.map (r.port, ·)).toList

structure Job where
  remoteEndpoint : Endpoint
  size : Nat
  origin : Datagram
  deriving DecidableEq, Repr

def Send.job (w : Send) : Job := ⟨w.remoteEndpoint, w.size, w.origin⟩

def Outcome.jobs (d : Datagram) : Outcome → List Job
  | .forwarded remoteEndpoint size => [⟨remoteEndpoint, size, d⟩]
  | _ => []

def startedJobs (t : ProxyStep) : List Job :=
  match t.output with
  | .handled _ (.received d) _ _ (some out) => out.jobs d
  | _ => []

def sentJobs (t : ProxyStep) : List Job :=
  match t.input with
  | .sent j => (t.pre.sends[j]?.map Send.job).toList
  | _ => []

def UdpProxy.inFlight (s : UdpProxy) : List Job := s.sends.map Send.job

def transmittedJobs (t : ProxyStep) : List Job :=
  match t.output with
  | .transmitted w _ => [w.job]
  | _ => []

def Send.unread (w : Send) : List Job := if w.wire = none then [w.job] else []

/-- A send that completes without having read its bytes. -/
def droppedJobs (t : ProxyStep) : List Job :=
  match t.input with
  | .sent j => (t.pre.sends[j]?.map Send.unread).getD []
  | _ => []

def UdpProxy.unread (s : UdpProxy) : List Job := s.sends.flatMap Send.unread

section Steps
variable {t : ProxyStep}

/-- A completion waits from the moment it arrives to the run of its handler. -/
theorem arrivals_balance (ht : t.pre.step t.input = some (t.output, t.post)) :
    (arrived t ++ t.pre.waiting).Perm (handledArrival t ++ t.post.waiting) := by
  cases step_effect ht with
  | deliver i d r hin hr hnone hout hpost =>
    have hset := flatMap_set hr { r with result := some (.received d) }
      fun r => (r.result.map (r.port, ·)).toList
    rw [hpost]
    simpa [arrived, hin, arrivalAt, hr, handledArrival, hout, UdpProxy.waiting, hnone] using hset
  | fail i aborted r hin hr hnone hout hpost =>
    have hset := flatMap_set hr { r with result := some (.failed aborted) }
      fun r => (r.result.map (r.port, ·)).toList
    rw [hpost]
    simpa [arrived, hin, arrivalAt, hr, handledArrival, hout, UdpProxy.waiting, hnone] using hset
  | handle i env r c socket out l hin hr hc hout _ hpost =>
    have herase := flatMap_eraseIdx hr fun r => (r.result.map (r.port, ·)).toList
    have hrearm : (r.rearm c socket).flatMap (fun r => (r.result.map (r.port, ·)).toList) = [] := by
      rw [rearm_eq hc]
      cases r.rearms <;> rfl
    rw [hpost]
    simpa [arrived, hin, handledArrival, hout, UdpProxy.waiting, hc, hrearm] using herase
  | transmit j w hin _ _ hout hpost =>
    rw [hpost]
    simp [arrived, hin, handledArrival, hout, UdpProxy.waiting]
  | sent j w hin _ hout hpost =>
    rw [hpost]
    simp [arrived, hin, handledArrival, hout, UdpProxy.waiting]

theorem jobs_started {c : Completion} {out : Option Outcome} {port : Int} {seen : Endpoint}
    {bytes : Bytes} (hout : t.output = .handled port c seen bytes out) (socket : Socket) :
    (c.sends out socket).map Send.job = startedJobs t := by
  unfold startedJobs Completion.sends
  rw [hout]
  cases c with
  | failed aborted => rfl
  | received d =>
    cases out with
    | none => rfl
    | some out => cases out <;> rfl

/-- A send is in flight from the handler that starts it to its own handler. -/
theorem jobs_balance (ht : t.pre.step t.input = some (t.output, t.post)) :
    (startedJobs t ++ t.pre.inFlight).Perm (sentJobs t ++ t.post.inFlight) := by
  cases step_effect ht with
  | deliver i d r hin hr _ hout hpost | fail i aborted r hin hr _ hout hpost =>
    rw [hpost, startedJobs, hout, sentJobs, hin]
    exact .refl _
  | handle i env r c socket out l hin _ _ hout _ hpost =>
    have hinFlight : t.post.inFlight = t.pre.inFlight ++ startedJobs t := by
      rw [hpost, ← jobs_started hout socket]
      exact List.map_append
    rw [hinFlight, sentJobs, hin]
    exact List.perm_append_comm
  | transmit j w hin hw _ hout hpost =>
    have hset := flatMap_set hw { w with wire := some (t.pre.buffer.take w.size) }
      fun w => [w.job]
    rw [← List.map_eq_flatMap, ← List.map_eq_flatMap] at hset
    rw [hpost, startedJobs, hout, sentJobs, hin]
    exact (List.perm_append_left_iff [w.job]).mp hset
  | sent j w hin hw hout hpost =>
    have herase := flatMap_eraseIdx hw fun w => [w.job]
    rw [← List.map_eq_flatMap, ← List.map_eq_flatMap] at herase
    have hsent : sentJobs t = [w.job] := by simp [sentJobs, hin, hw]
    rw [hsent, hpost, startedJobs, hout]
    exact herase

/-- A send reads its bytes once, or completes without having read them. -/
theorem wire_balance (ht : t.pre.step t.input = some (t.output, t.post)) :
    (startedJobs t ++ t.pre.unread).Perm
      ((transmittedJobs t ++ droppedJobs t) ++ t.post.unread) := by
  cases step_effect ht with
  | deliver i d r hin hr _ hout hpost | fail i aborted r hin hr _ hout hpost =>
    rw [hpost, startedJobs, hout, transmittedJobs, hout, droppedJobs, hin]
    exact .refl _
  | handle i env r c socket out l hin _ _ hout hcompletes hpost =>
    have hnew : (c.sends out socket).flatMap Send.unread = startedJobs t := by
      rw [← jobs_started hout socket, List.map_eq_flatMap]
      refine List.flatMap_congr fun w hw => ?_
      rw [Send.unread, if_pos (mem_sends_of_completes hcompletes hw).1]
    have hunread : t.post.unread = t.pre.unread ++ startedJobs t := by
      rw [hpost, ← hnew]
      exact List.flatMap_append
    rw [hunread, transmittedJobs, hout, droppedJobs, hin]
    exact List.perm_append_comm
  | transmit j w hin hw hnone hout hpost =>
    have hset := flatMap_set hw { w with wire := some (t.pre.buffer.take w.size) } Send.unread
    have hjob : w.unread = [w.job] := by rw [Send.unread, if_pos hnone]
    rw [hjob] at hset
    rw [hpost, startedJobs, hout, transmittedJobs, hout, droppedJobs, hin]
    exact hset
  | sent j w hin hw hout hpost =>
    have herase := flatMap_eraseIdx hw Send.unread
    have hdropped : droppedJobs t = w.unread := by simp [droppedJobs, hin, hw]
    rw [hdropped, hpost, startedJobs, hout, transmittedJobs, hout]
    exact herase

end Steps

theorem started_waiting {s : UdpProxy} (h : Started s) :
    s.waiting = [] ∧ s.inFlight = [] ∧ s.unread = [] := by
  obtain ⟨opened, -, hreceives, hsends⟩ := started_receives h
  refine ⟨?_, by rw [UdpProxy.inFlight, hsends]; rfl, by rw [UdpProxy.unread, hsends]; rfl⟩
  rw [UdpProxy.waiting, hreceives, List.flatMap_map]
  exact List.flatMap_eq_nil_iff.mpr fun o _ => rfl

/-- Of what arrived nothing is lost or handled twice, and of what handlers started
to send nothing is lost or put on the wire twice. -/
structure Conserved (tr : List ProxyStep) (s : UdpProxy) : Prop where
  arrivals : (tr.flatMap arrived).Perm (tr.flatMap handledArrival ++ s.waiting)
  jobs : (tr.flatMap startedJobs).Perm (tr.flatMap sentJobs ++ s.inFlight)
  wire : (tr.flatMap transmittedJobs).Subperm (tr.flatMap startedJobs)

theorem datagrams_conserved {s : UdpProxy} (hstart : Started s) {tr : List ProxyStep}
    (hrun : IsRun UdpProxy.step s tr) : Conserved tr (final s tr) := by
  obtain ⟨hwaiting, hflight, hunread⟩ := started_waiting hstart
  have harrivals := hrun.balance arrived handledArrival UdpProxy.waiting
    fun t ht => arrivals_balance ht
  have hjobs := hrun.balance startedJobs sentJobs UdpProxy.inFlight fun t ht => jobs_balance ht
  have hwire := hrun.balance startedJobs (fun t => transmittedJobs t ++ droppedJobs t)
    UdpProxy.unread fun t ht => wire_balance ht
  rw [hwaiting, List.append_nil] at harrivals
  rw [hflight, List.append_nil] at hjobs
  rw [hunread, List.append_nil] at hwire
  refine ⟨harrivals, hjobs, ?_⟩
  have hfirst : (tr.flatMap transmittedJobs).Sublist
      ((tr.flatMap transmittedJobs ++ tr.flatMap droppedJobs) ++ (final s tr).unread) := by
    rw [List.append_assoc]
    exact List.sublist_append_left _ _
  exact hfirst.subperm.trans
    (((flatMap_append_perm _ _ tr).symm.append_right _).trans hwire.symm).subperm

theorem datagrams_conserved_together :
    arriveTogether.length = 3 ∧ Conserved arriveTogether (final twoPorts arriveTogether) :=
  ⟨by decide, datagrams_conserved twoPorts_started (isRun_trace _ _)⟩

section Weights
variable {cost : Action → Nat} {f : Receive → Nat} {g : Send → Nat}

def UdpProxy.weight (f : Receive → Nat) (g : Send → Nat) (s : UdpProxy) : Nat :=
  (s.receives.map f).sum + (s.sends.map g).sum

/-- What the operations on some of the sockets weigh. -/
def UdpProxy.weightOn (p : Socket → Bool) (f : Receive → Nat) (g : Send → Nat) (s : UdpProxy) :
    Nat :=
  s.weight (fun r => if p r.socket then f r else 0) fun w => if p w.socket then g w else 0

/-- The socket of the operation that an action is about. -/
def UdpProxy.socketOf (s : UdpProxy) : Action → Option Socket
  | .deliver i _ | .fail i _ | .handle i _ => s.receives[i]?.map (·.socket)
  | .transmit j | .sent j => s.sends[j]?.map (·.socket)

def costOn (p : Socket → Bool) (cost : Action → Nat) (t : ProxyStep) : Nat :=
  if (t.pre.socketOf t.input).any p then cost t.input else 0

/-- What each operation weighs pays for what its steps cost and for the operations
that they start. -/
structure Pays (cost : Action → Nat) (f : Receive → Nat) (g : Send → Nat) : Prop where
  deliver : ∀ i d r, r.result = none →
    cost (.deliver i d) + f { r with result := some (.received d) } ≤ f r
  fail : ∀ i aborted r, r.result = none →
    cost (.fail i aborted) + f { r with result := some (.failed aborted) } ≤ f r
  handle : ∀ i env r c out socket, r.result = some c →
    cost (.handle i env) + ((r.rearm c socket).map f).sum +
      ((c.sends out socket).map g).sum ≤ f r
  transmit : ∀ j w bytes, w.wire = none →
    cost (.transmit j) + g { w with wire := some bytes } ≤ g w
  sent : ∀ j w, cost (.sent j) ≤ g w

theorem rearm_weightOn (p : Socket → Bool) (r : Receive) (c : Completion) (socket : Socket) :
    ((r.rearm c socket).map fun r => if p r.socket then f r else 0).sum =
      if p socket then ((r.rearm c socket).map f).sum else 0 := by
  rw [← sum_map_ite]
  refine congrArg List.sum (List.map_congr_left fun r' hr' => ?_)
  rw [mem_rearm hr']

theorem sends_weightOn (p : Socket → Bool) (c : Completion) (out : Option Outcome)
    (socket : Socket) :
    ((c.sends out socket).map fun w => if p w.socket then g w else 0).sum =
      if p socket then ((c.sends out socket).map g).sum else 0 := by
  rw [← sum_map_ite]
  refine congrArg List.sum (List.map_congr_left fun w hw => ?_)
  rw [mem_sends_socket hw]

/-- What is paid for, is paid for on every socket by itself. -/
theorem pay_where {m n k : Nat} (h : m + n ≤ k) (b : Bool) :
    (if b then m else 0) + (if b then n else 0) ≤ if b then k else 0 := by
  cases b with
  | false => exact Nat.le_refl 0
  | true => exact h

/-- The operations on some of the sockets pay for the steps that are about them, if a
handler starts no operation on another socket than its own. -/
theorem pays_step (h : Pays cost f g) (p : Socket → Bool) {t : ProxyStep}
    (ht : t.pre.step t.input = some (t.output, t.post))
    (hown : ∀ r ∈ t.pre.receives, ∀ c env socket out l,
      Completes t.pre r c env socket out l → p socket = p r.socket) :
    costOn p cost t + t.post.weightOn p f g ≤ t.pre.weightOn p f g := by
  let onReceive : Receive → Nat := fun r => if p r.socket then f r else 0
  let onSend : Send → Nat := fun w => if p w.socket then g w else 0
  cases step_effect ht with
  | deliver i d r hin hr hnone _ hpost =>
    have hpaid := pay_where (h.deliver i d r hnone) (p r.socket)
    have hsum := sum_set hr { r with result := some (.received d) } onReceive
    rw [costOn, hin, hpost]
    simp only [UdpProxy.weightOn, UdpProxy.weight, UdpProxy.write, UdpProxy.socketOf, hr,
      Option.map_some, Option.any_some, onReceive] at hsum ⊢
    omega
  | fail i aborted r hin hr hnone _ hpost =>
    have hpaid := pay_where (h.fail i aborted r hnone) (p r.socket)
    have hsum := sum_set hr { r with result := some (.failed aborted) } onReceive
    rw [costOn, hin, hpost]
    simp only [UdpProxy.weightOn, UdpProxy.weight, UdpProxy.socketOf, hr,
      Option.map_some, Option.any_some, onReceive] at hsum ⊢
    omega
  | handle i env r c socket out l hin hr hc _ hcompletes hpost =>
    have hpaid := h.handle i env r c out socket hc
    have hsum := sum_eraseIdx hr onReceive
    have hsame := hown r (List.mem_of_getElem? hr) c env socket out l hcompletes
    rw [costOn, hin, hpost]
    simp only [UdpProxy.weightOn, UdpProxy.weight, UdpProxy.socketOf, hr, Option.map_some,
      Option.any_some, List.map_append, List.sum_append, rearm_weightOn, sends_weightOn, hsame,
      onReceive] at hsum ⊢
    cases hp : p r.socket <;>
      simp only [hp, if_true, Bool.false_eq_true, if_false] at hsum ⊢ <;> omega
  | transmit j w hin hw hnone _ hpost =>
    have hpaid := pay_where (h.transmit j w (t.pre.buffer.take w.size) hnone) (p w.socket)
    have hsum := sum_set hw { w with wire := some (t.pre.buffer.take w.size) } onSend
    rw [costOn, hin, hpost]
    simp only [UdpProxy.weightOn, UdpProxy.weight, UdpProxy.socketOf, hw,
      Option.map_some, Option.any_some, onSend] at hsum ⊢
    omega
  | sent j w hin hw _ hpost =>
    have hpaid := pay_where (n := 0) (h.sent j w) (p w.socket)
    have hsum := sum_eraseIdx hw onSend
    rw [costOn, hin, hpost]
    simp only [UdpProxy.weightOn, UdpProxy.weight, UdpProxy.socketOf, hw,
      Option.map_some, Option.any_some, onSend] at hsum ⊢
    omega

end Weights

/-- The steps that a receive can still lead to: its completion, its handler, a send
with its two steps, and the same again for the receive that an outer handler starts. -/
def Receive.stepsLeft (r : Receive) : Nat :=
  match r.handler, r.result with
  | .outer, none => 8
  | .outer, some _ => 7
  | .inner, none => 4
  | .inner, some _ => 3

def Send.stepsLeft (w : Send) : Nat := if w.wire = none then 2 else 1

def Receive.arrivalsLeft (r : Receive) : Nat :=
  match r.handler, r.result with
  | .outer, none => 2
  | .outer, some _ => 1
  | .inner, none => 1
  | .inner, some _ => 0

def Action.arrives : Action → Nat
  | .deliver _ _ | .fail _ _ => 1
  | _ => 0

theorem sends_cases (c : Completion) (out : Option Outcome) (socket : Socket) :
    c.sends out socket = [] ∨ ∃ w, c.sends out socket = [w] := by
  unfold Completion.sends
  split
  · rename_i d o
    cases o with
    | forwarded remoteEndpoint size => exact .inr ⟨_, rfl⟩
    | refused | failed => exact .inl rfl
  · exact .inl rfl

theorem stepsLeft_pays : Pays (fun _ => 1) Receive.stepsLeft Send.stepsLeft := by
  constructor
  · rintro i d ⟨socket, port, handler, result⟩ rfl
    cases handler <;> exact Nat.le_refl _
  · rintro i aborted ⟨socket, port, handler, result⟩ rfl
    cases handler <;> exact Nat.le_refl _
  · rintro i env ⟨sock, port, handler, result⟩ c out socket rfl
    have hsends : ((c.sends out socket).map Send.stepsLeft).sum ≤ 2 := by
      rcases sends_cases c out socket with hnone | ⟨w, hone⟩
      · simp [hnone]
      · simp only [hone, List.map_cons, List.map_nil, List.sum_cons, List.sum_nil, Send.stepsLeft]
        split <;> omega
    cases handler <;> cases c <;>
      simp [Receive.rearm, Handler.rearms, Receive.stepsLeft] <;> omega
  · intro j w bytes hnone
    simp [Send.stepsLeft, hnone]
  · intro j w
    unfold Send.stepsLeft
    split <;> omega

theorem arrivalsLeft_pays : Pays Action.arrives Receive.arrivalsLeft (fun _ => 0) := by
  constructor
  · rintro i d ⟨socket, port, handler, result⟩ rfl
    cases handler <;> exact Nat.le_refl _
  · rintro i aborted ⟨socket, port, handler, result⟩ rfl
    cases handler <;> exact Nat.le_refl _
  · rintro i env ⟨sock, port, handler, result⟩ c out socket rfl
    have hsends : ((c.sends out socket).map fun _ => 0).sum = 0 := by simp
    rw [hsends]
    cases handler <;> cases c <;>
      simp [Receive.rearm, Handler.rearms, Receive.arrivalsLeft, Action.arrives]
  · intro j w bytes _
    exact Nat.le_refl _
  · intro j w
    exact Nat.le_refl _

section Progress
variable {s : UdpProxy}

theorem inStep_started (h : Started s) : InStep s.startPort s.endPort s := by
  obtain ⟨lim, clock, held, opened, hs, hports, hopened⟩ := started_opened h
  have hnew := inStep_new s.startPort s.endPort lim clock
  have hrange : portRange s.startPort s.endPort = opened.map (·.1) ++ [] := by
    rw [hports, List.append_nil]
  rw [hs]
  exact hnew.opened rfl hrange hopened.bound

/-- A clock that stands still is one that the limiter accepts. -/
theorem step_accepts (lim : Limits) (l : LimiterState) (client : Endpoint) (n : Nat) :
    ∃ out l', step lim l ⟨client, n, ⟨l.clock, l.clock, none, false⟩⟩ = some (out, l') := by
  unfold step
  dsimp only
  rw [if_pos]
  · exact ⟨_, _, rfl⟩
  · unfold lastReading
    split <;> exact ⟨Int.le_refl _, Int.le_refl _⟩

theorem complete_accepts {r : Receive} (hown : OwnSocket s r) (c : Completion) :
    ∃ env out s', s.complete r c env = some (out, s') := by
  cases c with
  | failed aborted => exact ⟨sampleSurroundings, none, s, complete_failed s r aborted _⟩
  | received d =>
    obtain ⟨out, l', hstep⟩ := step_accepts s.limits s.limiter s.clientEndpoint d.kept.length
    refine ⟨⟨s.limiter.clock, s.limiter.clock, none, false⟩, ?_⟩
    rw [complete_received, hown.index, Option.bind_some, handleAt_eq, hstep]
    split <;> exact ⟨_, _, rfl⟩

/-- As long as an operation is outstanding, something can happen. -/
theorem stuck_iff (h : InStep s.startPort s.endPort s) :
    (∀ a, s.step a = none) ↔ s.outstandingWork = 0 := by
  constructor
  · intro hstuck
    cases hreceives : s.receives with
    | cons r rest =>
      exfalso
      have hr : s.receives[0]? = some r := by rw [hreceives]; rfl
      cases hresult : r.result with
      | none =>
        have hnext := hstuck (.fail 0 true)
        obtain ⟨socket, port, handler, result⟩ := r
        dsimp only at hresult
        subst hresult
        simp [UdpProxy.step, UdpProxy.finish, hr] at hnext
      | some c =>
        let s' : UdpProxy := { s with receives := s.receives.eraseIdx 0 }
        obtain ⟨hfirst, hindex, hbound⟩ := h.receives r (List.mem_of_getElem? hr)
        have hown : OwnSocket s' r := ⟨hfirst, hindex, hbound⟩
        obtain ⟨env, out, s'', hcomplete⟩ := complete_accepts hown c
        have hnext := hstuck (.handle 0 env)
        obtain ⟨socket, port, handler, result⟩ := r
        dsimp only at hresult
        subst hresult
        have hsome : s'.complete ⟨socket, port, handler, some c⟩ c env ≠ none := by
          rw [hcomplete]
          nofun
        simp only [UdpProxy.step, hr, Option.map_eq_none_iff] at hnext
        exact hsome hnext
    | nil =>
      cases hsends : s.sends with
      | nil => rw [UdpProxy.outstandingWork, hreceives, hsends]; rfl
      | cons w rest =>
        have hnext := hstuck (.sent 0)
        simp [UdpProxy.step, hsends] at hnext
  · intro hnone a
    obtain ⟨hreceives, hsends⟩ : s.receives = [] ∧ s.sends = [] := by
      simpa [UdpProxy.outstandingWork] using hnone
    cases a <;> simp [UdpProxy.step, UdpProxy.finish, UdpProxy.write, hreceives, hsends]

end Progress

/-- The steps that a started proxy can still make. -/
def UdpProxy.stepsLeft (s : UdpProxy) : Nat :=
  s.weightOn (fun _ => true) Receive.stepsLeft Send.stepsLeft

theorem socketOf_isSome {t : ProxyStep} (ht : t.pre.step t.input = some (t.output, t.post)) :
    ∃ socket, t.pre.socketOf t.input = some socket := by
  cases step_effect ht with
  | deliver i d r hin hr | fail i aborted r hin hr | handle i env r _ _ _ _ hin hr =>
    exact ⟨r.socket, by rw [hin, UdpProxy.socketOf, hr, Option.map_some]⟩
  | transmit j w hin hw | sent j w hin hw =>
    exact ⟨w.socket, by rw [hin, UdpProxy.socketOf, hw, Option.map_some]⟩

theorem proxy_stepsLeft {t : ProxyStep} (ht : t.pre.step t.input = some (t.output, t.post)) :
    t.post.stepsLeft < t.pre.stepsLeft := by
  have hpaid := pays_step stepsLeft_pays (fun _ => true) ht fun _ _ _ _ _ _ _ _ => rfl
  obtain ⟨socket, hsocket⟩ := socketOf_isSome ht
  rw [costOn, hsocket, Option.any_some, if_pos rfl] at hpaid
  exact Nat.lt_of_lt_of_le (by rw [Nat.add_comm]; exact Nat.lt_succ_self _) hpaid

/-- How often a run steps on behalf of a socket, and how often a receive on it
completes. -/
def stepsOf (socket : Socket) (tr : List ProxyStep) : Nat :=
  (tr.map (costOn (· = socket) fun _ => 1)).sum

def arrivalsOf (socket : Socket) (tr : List ProxyStep) : Nat :=
  (tr.map (costOn (· = socket) Action.arrives)).sum

/-- The life of a proxy after a start that succeeded. -/
structure Lifetime (s : UdpProxy) (tr : List ProxyStep) : Prop where
  one_each : s.sockets.Nodup ∧ s.sockets.length = s.ports.length
  steps : ∀ socket ∈ s.sockets, stepsOf socket tr ≤ 8
  arrivals : ∀ socket ∈ s.sockets, arrivalsOf socket tr ≤ 2
  total : tr.length ≤ 8 * s.ports.length
  over_iff : (∀ a, (final s tr).step a = none) ↔ (final s tr).outstandingWork = 0
  ends : ∃ rest, IsRun UdpProxy.step (final s tr) rest ∧
    (final (final s tr) rest).outstandingWork = 0

section Started
variable {s : UdpProxy}

theorem started_sockets (h : Started s) :
    s.sockets.Nodup ∧ s.sockets.length = s.ports.length := by
  obtain ⟨lim, clock, held, opened, hs, hports, hopened⟩ := started_opened h
  have hsockets : s.sockets = opened.map (·.2) := by
    rw [hs]
    rfl
  rw [hsockets, UdpProxy.ports, ← hports, List.length_map, List.length_map]
  refine ⟨List.Nodup.of_map (·.boundTo) ?_, rfl⟩
  rw [List.map_map]
  exact hopened.distinct

theorem weight_started (h : Started s) (p : Socket → Bool) {f : Receive → Nat}
    {g : Send → Nat} {n : Nat} (hf : ∀ socket port, f (armedReceive socket port) = n) :
    s.weightOn p f g = n * s.sockets.countP p := by
  obtain ⟨lim, clock, -, opened, hs, -⟩ := started_opened h
  have hreceives : s.receives = opened.map fun o => armedReceive o.2 o.1 := by
    rw [hs]
    rfl
  have hsockets : s.sockets = opened.map (·.2) := by
    rw [hs]
    rfl
  have hsends : s.sends = [] := by
    rw [hs]
    rfl
  rw [UdpProxy.weightOn, UdpProxy.weight, hreceives, hsockets, hsends, List.map_nil, List.sum_nil,
    Nat.add_zero, List.map_map, List.countP_map]
  clear hs hreceives hsockets hsends
  induction opened with
  | nil => rfl
  | cons o opened ih =>
    rw [List.map_cons, List.sum_cons, ih, List.countP_cons]
    simp only [Function.comp_apply, hf]
    change (if p o.2 = true then n else 0) + _ = _
    split <;> simp only [Nat.mul_add, Nat.mul_one, Nat.mul_zero] <;> omega

variable {tr : List ProxyStep}

theorem run_inStep_started (h : Started s) (hrun : IsRun UdpProxy.step s tr) :
    InStep s.startPort s.endPort (final s tr) :=
  hrun.invariant (InStep s.startPort s.endPort) (fun _ => True) (fun _ _ => trivial)
    (inStep_started h) fun _ _ h ht => h.step ht

/-- What the operations on one socket weigh at the start pays for all steps on it. -/
theorem cost_on_socket_le (h : Started s) (hrun : IsRun UdpProxy.step s tr)
    {cost : Action → Nat} {f : Receive → Nat} {g : Send → Nat} (hpays : Pays cost f g) {n : Nat}
    (hf : ∀ socket port, f (armedReceive socket port) = n) (socket : Socket) :
    (tr.map (costOn (· = socket) cost)).sum ≤ n := by
  have hcost := hrun.cost_le (UdpProxy.weightOn (· = socket) f g) (costOn (· = socket) cost)
    fun t ht => by
      obtain ⟨before, after, rfl, hbefore, hpre, hstep⟩ := hrun.split ht
      have hinStep := run_inStep_started h hbefore
      rw [← hpre] at hinStep
      refine pays_step hpays _ hstep fun r hr c env socket' out l hcompletes => ?_
      rw [hinStep.found hr hcompletes]
  have honce : s.sockets.countP (· = socket) ≤ 1 := by
    have hcount := List.nodup_iff_count_le_one.mp (started_sockets h).1 socket
    rwa [List.count_eq_countP] at hcount
  rw [weight_started h _ hf] at hcost
  calc (tr.map (costOn (· = socket) cost)).sum
      ≤ n * s.sockets.countP (· = socket) := (Nat.le_add_right _ _).trans hcost
    _ ≤ n * 1 := Nat.mul_le_mul_left n honce
    _ = n := Nat.mul_one n

end Started

/-- Whatever happens, a started proxy takes no more than two datagrams on the socket of
each of its ports and makes no more than eight steps for it; while anything is
outstanding it can go on, and it always can to where nothing is, so that `startProxy`
returns. -/
theorem started_proxy_ends {s : UdpProxy} (hstart : Started s) {tr : List ProxyStep}
    (hrun : IsRun UdpProxy.step s tr) : Lifetime s tr := by
  have hstuck : ∀ {u : UdpProxy}, InStep s.startPort s.endPort u →
      ((∀ a, u.step a = none) ↔ u.outstandingWork = 0) := by
    intro u hu
    obtain ⟨hfirst, hlast⟩ := hu.range
    exact stuck_iff (by rwa [hfirst, hlast])
  refine ⟨started_sockets hstart, ?_, ?_, ?_, hstuck (run_inStep_started hstart hrun), ?_⟩
  · exact fun socket _ => cost_on_socket_le hstart hrun stepsLeft_pays (fun _ _ => rfl) socket
  · exact fun socket _ => cost_on_socket_le hstart hrun arrivalsLeft_pays (fun _ _ => rfl) socket
  · have hlength := hrun.length_le UdpProxy.stepsLeft fun t ht => proxy_stepsLeft ht
    rw [UdpProxy.stepsLeft, weight_started hstart _ (n := 8) fun _ _ => rfl, List.countP_true,
      (started_sockets hstart).2] at hlength
    exact hlength
  · obtain ⟨rest, hrest, hlast⟩ := exists_last UdpProxy.stepsLeft
      (fun t ht => proxy_stepsLeft ht) (final s tr)
    refine ⟨rest, hrest, ?_⟩
    rw [← final_append] at hlast ⊢
    have hwhole := (isRun_append s tr rest).mpr ⟨hrun, hrest⟩
    exact (hstuck (run_inStep_started hstart hwhole)).mp hlast

theorem started_proxy_ends_two :
    twoDatagrams.length = 8 ∧ Lifetime onePort twoDatagrams :=
  ⟨by decide, started_proxy_ends onePort_started (isRun_trace _ _)⟩

end Qwin
