import Qwin.Proxy.Startup

/-!
What a start that fails leaves behind. The exception ends the loop where it is
raised, and nothing closes the sockets that were opened before.
-/

set_option autoImplicit false

namespace Qwin

/-- Port 0 never stops a start: another port is opened for it, and the first one is
left in `sockets` besides. -/
example :
    let s : UdpProxy := .new 0 1 ⟨[], 10, 600⟩ 0
    let failed := s.startProxy dynamicPorts [1]
    failed.1 = false ∧ failed.2.2.sockets = [⟨49152⟩] ∧
      (failed.2.2.startProxy dynamicPorts [49152]).1 = true ∧
      (failed.2.2.startProxy dynamicPorts [49152]).2.2.sockets = [⟨49152⟩, ⟨49153⟩, ⟨1⟩] := by
  decide

end Qwin
