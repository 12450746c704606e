import Qwin.Emulator.Listener

/-!
What the completion handler makes of a datagram. It examines a copy of the array
from before the receive, and compares it with literals no byte is equal to.
-/

set_option autoImplicit false

namespace Qwin.Modules1
open Runs

/-- Five bytes or more, the first of them `0xFF` four times and the letter. -/
def IsRequest (letter : UInt8) (payload : List UInt8) : Prop :=
  5 ≤ payload.length ∧ payload.take 5 = [0xFF, 0xFF, 0xFF, 0xFF, letter]

instance (letter : UInt8) (payload : List UInt8) : Decidable (IsRequest letter payload) :=
  inferInstanceAs (Decidable (_ ∧ _))

/-- The handler of a receive calls what the datagram asks for, for its sender. -/
structure DispatchesExactly (sender : Endpoint) (payload : List UInt8) (call : Option Occasion) :
    Prop where
  info : call = some (.infoRequest sender) ↔ IsRequest 0x69 payload
  player : call = some (.playerRequest sender) ↔ IsRequest 0x70 payload
  otherwise : ¬ IsRequest 0x69 payload → ¬ IsRequest 0x70 payload → call = none

theorem promoted_ne_literal (b : UInt8) : promoted b ≠ charLiteral 0xFF := by
  have hliteral : charLiteral 0xFF = -1 := by decide
  have hpos : 0 ≤ promoted b := Int.natCast_nonneg _
  omega

theorem completionHandler_eq_none (r : Receive) (c : Completion) :
    r.completionHandler c = none := by
  unfold Receive.completionHandler
  simp [promoted_ne_literal]

theorem dispatchesExactly_none (sender : Endpoint) (payload : List UInt8) :
    DispatchesExactly sender payload none ↔
      ¬ IsRequest 0x69 payload ∧ ¬ IsRequest 0x70 payload := by
  constructor
  · intro h
    constructor
    · intro hinfo
      cases h.info.mpr hinfo
    · intro hplayer
      cases h.player.mpr hplayer
  · rintro ⟨hinfo, hplayer⟩
    exact ⟨by simp [hinfo], by simp [hplayer], fun _ _ => rfl⟩

/-- Whatever the buffers hold, the handler of a delivered datagram does right by
it exactly when it is no request. -/
theorem dispatch_iff {s : Listener} {tr : List ListenerStep} (hrun : IsRun Listener.step s tr)
    {t : ListenerStep} (ht : t ∈ tr) {i : Nat} {env : Surroundings} {r : Receive}
    {sender : Endpoint} {payload : List UInt8} (hin : t.input = .handle i env)
    (hr : t.pre.receives[i]? = some r) (hd : r.result = some (.received sender payload)) :
    ∃ call sent, t.output = .handled (.received sender payload) call sent ∧
      (DispatchesExactly sender payload call ↔
        ¬ IsRequest 0x69 payload ∧ ¬ IsRequest 0x70 payload) := by
  obtain ⟨-, -, -, -, -, hstep⟩ := hrun.split ht
  rw [hin] at hstep
  obtain ⟨r', c, hr', hc, hout, -⟩ := step_handle hstep
  obtain rfl := Option.some.inj (hr.symm.trans hr')
  obtain rfl := Option.some.inj (hd.symm.trans hc)
  refine ⟨_, _, hout, ?_⟩
  rw [completionHandler_eq_none]
  exact dispatchesExactly_none sender payload

/-- `localServer` with the flag set, as if it listened. -/
def listening : Listener :=
  ServerEmulator.listenForConnections { localServer with bound := true } clearedBuffer

def client : Endpoint := ⟨"10.0.0.1", 27005⟩

def infoRequestRun : List ListenerStep :=
  trace Listener.step listening [.minute, .deliver 0 client [0xFF, 0xFF, 0xFF, 0xFF, 0x69],
    .handle 0 quietSurroundings]

theorem dispatch_iff_info :
    ∃ call sent, (infoRequestRun.get ⟨2, by decide⟩).output =
        .handled (.received client [0xFF, 0xFF, 0xFF, 0xFF, 0x69]) call sent ∧
      (DispatchesExactly client [0xFF, 0xFF, 0xFF, 0xFF, 0x69] call ↔
        ¬ IsRequest 0x69 [0xFF, 0xFF, 0xFF, 0xFF, 0x69] ∧
          ¬ IsRequest 0x70 [0xFF, 0xFF, 0xFF, 0xFF, 0x69]) := by
  let r : Receive := ⟨clearedBuffer, unsetEndpoint,
    some (.received client [0xFF, 0xFF, 0xFF, 0xFF, 0x69])⟩
  have hr : (infoRequestRun.get ⟨2, by decide⟩).pre.receives[0]? = some r := rfl
  exact dispatch_iff (isRun_trace _ _) (List.get_mem _ _) rfl hr rfl

theorem infoRequest_is_ignored :
    IsRun Listener.step listening infoRequestRun ∧
    IsRequest 0x69 [0xFF, 0xFF, 0xFF, 0xFF, 0x69] ∧
    infoRequestRun.map (·.output) = [.silent, .silent,
      .handled (.received client [0xFF, 0xFF, 0xFF, 0xFF, 0x69]) none none] ∧
    ¬ DispatchesExactly client [0xFF, 0xFF, 0xFF, 0xFF, 0x69] none := by
  refine ⟨isRun_trace _ _, by decide, ?_, ?_⟩
  · simp [infoRequestRun, listening, ServerEmulator.listenForConnections, trace, Listener.step,
      Listener.finish, completionHandler_eq_none]
  · rw [dispatchesExactly_none]
    decide

end Qwin.Modules1
