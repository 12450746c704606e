import Qwin.Proxy.Step

/-!
Which datagram a handler and a send really work on. All ports share one buffer
and one endpoint, so the answer depends on what is delivered in between.
-/

set_option autoImplicit false

namespace Qwin
open Runs

/-- A handler found the sender and the bytes its own receive delivered, and a
send put on the wire the bytes of the datagram whose handler started it. -/
def Event.intact : Event → Bool
  | .handled _ (.received d) seen bytes _ => seen = d.sender ∧ bytes = d.kept
  | .transmitted send bytes => bytes = send.origin.kept
  | _ => true

def Receive.holdsDatagram (r : Receive) : Bool :=
  match r.result with
  | some (.received _) => true
  | _ => false

/-- Nothing that is still needed lies in the shared objects: no delivered
datagram waits for its handler and no send has its bytes still to read. -/
def UdpProxy.idle (s : UdpProxy) : Prop :=
  (∀ r ∈ s.receives, r.holdsDatagram = false) ∧ ∀ w ∈ s.sends, w.wire.isSome = true

instance (s : UdpProxy) : Decidable s.idle := inferInstanceAs (Decidable (_ ∧ _))

def Action.delivers : Action → Bool
  | .deliver _ _ => true
  | _ => false

def Undisturbed (t : ProxyStep) : Prop := t.input.delivers = true → t.pre.idle

instance (t : ProxyStep) : Decidable (Undisturbed t) := inferInstanceAs (Decidable (_ → _))

structure Coherent (s : UdpProxy) : Prop where
  waiting : ∀ r ∈ s.receives, ∀ d, r.result = some (.received d) →
    s.clientEndpoint = d.sender ∧ s.buffer.take d.kept.length = d.kept
  unread : ∀ w ∈ s.sends, w.wire = none → s.buffer.take w.size = w.origin.kept

theorem coherent_started {s : UdpProxy} (h : Started s) : Coherent s := by
  obtain ⟨opened, -, hreceives, hsends⟩ := started_receives h
  constructor
  · rw [hreceives]
    intro r hr d hd
    obtain ⟨o, -, rfl⟩ := List.mem_map.mp hr
    cases hd
  · simp [hsends]

theorem coherent_deliver {s : UdpProxy} (hidle : s.idle) {i : Nat} {d : Datagram} {r : Receive} :
    Coherent { s.write d with
      receives := s.receives.set i { r with result := some (.received d) } } := by
  constructor
  · intro r' hr' d' hd'
    rcases List.mem_or_eq_of_mem_set hr' with hold | rfl
    · have hnot := hidle.1 r' hold
      simp [Receive.holdsDatagram, hd'] at hnot
    · cases hd'
      exact ⟨rfl, List.take_left⟩
  · intro w hw hwire
    have hread := hidle.2 w hw
    simp [hwire] at hread

theorem coherent_step {t : ProxyStep} (hok : Undisturbed t) (h : Coherent t.pre)
    (ht : t.pre.step t.input = some (t.output, t.post)) : Coherent t.post := by
  cases step_effect ht with
  | deliver i d r hin _ _ _ hpost =>
    have hidle : t.pre.idle := hok (by rw [hin]; rfl)
    rw [hpost]
    exact coherent_deliver hidle
  | fail i aborted r _ _ _ _ hpost =>
    rw [hpost]
    refine ⟨fun r' hr' d hd => ?_, h.unread⟩
    rcases List.mem_or_eq_of_mem_set hr' with hold | rfl
    · exact h.waiting r' hold d hd
    · cases hd
  | handle i env r c socket out l _ hr hc _ hcompletes hpost =>
    rw [hpost]
    constructor
    · intro r' hr' d hd
      rcases List.mem_append.mp hr' with hold | hrearm
      · exact h.waiting r' (List.mem_of_mem_eraseIdx hold) d hd
      · rw [mem_rearm hrearm] at hd
        cases hd
    · intro w hw hwire
      rcases List.mem_append.mp hw with hold | hnew
      · exact h.unread w hold hwire
      · obtain ⟨-, hreceived, hsize, -⟩ := mem_sends_of_completes hcompletes hnew
        rw [hsize]
        exact (h.waiting r (List.mem_of_getElem? hr) w.origin (hc.trans (by rw [hreceived]))).2
  | transmit j w _ _ _ _ hpost =>
    rw [hpost]
    refine ⟨h.waiting, fun w' hw' hwire => ?_⟩
    rcases List.mem_or_eq_of_mem_set hw' with hold | rfl
    · exact h.unread w' hold hwire
    · cases hwire
  | sent j _ _ _ _ hpost =>
    rw [hpost]
    exact ⟨h.waiting, fun w hw => h.unread w (List.mem_of_mem_eraseIdx hw)⟩

theorem intact_of_coherent {t : ProxyStep} (h : Coherent t.pre)
    (ht : t.pre.step t.input = some (t.output, t.post)) : t.output.intact = true := by
  cases step_effect ht with
  | deliver _ _ _ _ _ _ hout | fail _ _ _ _ _ _ hout | sent _ _ _ _ hout => rw [hout]; rfl
  | handle i env r c socket out l _ hr hc hout =>
    rw [hout]
    cases c with
    | received d =>
      obtain ⟨hsender, hbytes⟩ := h.waiting r (List.mem_of_getElem? hr) d hc
      simp [Event.intact, Completion.size, hsender, hbytes]
    | failed aborted => rfl
  | transmit j w _ hw hnone hout =>
    rw [hout]
    simp [Event.intact, h.unread w (List.mem_of_getElem? hw) hnone]

/-- In every run in which a datagram is only delivered while nothing needed lies
in the shared objects, every handler and every send works on its own datagram. -/
theorem payload_and_sender_integrity {s : UdpProxy} (hstart : Started s) {tr : List ProxyStep}
    (hrun : IsRun UdpProxy.step s tr) (hquiet : ∀ t ∈ tr, Undisturbed t) :
    ∀ t ∈ tr, t.output.intact = true := by
  intro t ht
  obtain ⟨before, after, rfl, hbefore, hpre, hstep⟩ := hrun.split ht
  refine intact_of_coherent ?_ hstep
  rw [hpre]
  refine hbefore.invariant Coherent Undisturbed (fun u hu => hquiet u (by simp [hu]))
    (coherent_started hstart) fun u hok h hu => coherent_step hok h hu

def sampleSurroundings : Surroundings := ⟨0, 0, some ⟨"89.223.121.95", 27015⟩, true⟩

def alice : Datagram := ⟨⟨"10.0.0.1", 27005⟩, [1, 2, 3]⟩
def bob : Datagram := ⟨⟨"10.0.0.2", 27006⟩, [9, 9]⟩

/-- The first of these ports that is free. -/
def dynamicPorts : Ephemeral where
  choose held := (List.range' 49152 16384).find? fun port => port ∉ held
  free := by
    intro held port h
    obtain ⟨hlo, -⟩ := List.mem_range'_1.mp (List.mem_of_find?_eq_some h)
    exact ⟨by omega, by simpa using List.find?_some h⟩

def twoPorts : UdpProxy :=
  ((UdpProxy.new 27015 27016 ⟨[], 10, 600⟩ 0).startProxy dynamicPorts []).2.2

theorem twoPorts_started : Started twoPorts :=
  ⟨27015, 27016, ⟨[], 10, 600⟩, 0, dynamicPorts, [], _, rfl⟩

/-- Both ports deliver before either handler runs. -/
def arriveTogether : List ProxyStep :=
  trace UdpProxy.step twoPorts [.deliver 0 alice, .deliver 1 bob, .handle 0 sampleSurroundings]

def arriveBeforeSend : List ProxyStep :=
  trace UdpProxy.step twoPorts [.deliver 0 alice, .handle 0 sampleSurroundings, .deliver 1 bob,
    .transmit 0]

theorem clobbered :
    (Started twoPorts ∧ IsRun UdpProxy.step twoPorts arriveTogether ∧
      arriveTogether.map (·.output.intact) = [true, true, false]) ∧
    IsRun UdpProxy.step twoPorts arriveBeforeSend ∧
      arriveBeforeSend.map (·.output.intact) = [true, true, true, false] :=
  ⟨⟨twoPorts_started, isRun_trace _ _, by decide⟩, isRun_trace _ _, by decide⟩

def arriveInTurn : List ProxyStep :=
  trace UdpProxy.step twoPorts [.deliver 0 alice, .handle 0 sampleSurroundings, .transmit 0,
    .deliver 0 bob, .handle 0 sampleSurroundings, .transmit 1]

theorem payload_and_sender_integrity_in_turn :
    arriveInTurn.length = 6 ∧ ∀ t ∈ arriveInTurn, t.output.intact = true :=
  ⟨by decide,
    payload_and_sender_integrity twoPorts_started (isRun_trace _ _) (by decide)⟩

end Qwin
