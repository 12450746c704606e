import Qwin.Emulator.Dispatch
import Qwin.Library.Ledger

/-!
A listening emulator over its whole life. It takes at most one datagram a minute
from its socket, answers none of them, and sends only its reports.
-/

set_option autoImplicit false

namespace Qwin.Modules1
open Runs

/-- Completions whose handlers have not run. -/
def Listener.waiting (s : Listener) : List Completion :=
  s.receives.flatMap fun r => r.result.toList

def reported (tr : List ListenerStep) : Nat := tr.countP fun t => t.input.isReport

section Steps
variable {t : ListenerStep}

end Steps

section Runs
variable {s : Listener} {tr : List ListenerStep}

end Runs

end Qwin.Modules1
