import Qwin.Library.Tags
import Qwin.Limiter.Accounting

/-!
The functions of src/utils.cpp and src/udp_proxy.cpp with the log lines they write.
What a line is about can be read back from its text.
-/

set_option autoImplicit false

namespace Qwin

/-- A call of `logMessage`. -/
structure LogLine where
  message : String
  logBaseName : String
  deriving DecidableEq, Repr

namespace Logged

/-- A result with the lines that were logged on the way to it. -/
abbrev Writer (α : Type) := List LogLine × α

def pruneLoop (blockDurationSeconds : Int) (now : Int) :
    List (Sigma fun _ : Ip => Entry) → IpMap → Writer IpMap
  | [], ipMap => ([], ipMap)
  | it :: rest, ipMap =>
    if stale blockDurationSeconds now it.2 then
      let (lines, ipMap) := pruneLoop blockDurationSeconds now rest (ipMap.erase it.1)
      (⟨"Удаление устаревшей записи для IP: " ++ it.1, "proxy"⟩ :: lines, ipMap)
    else
      pruneLoop blockDurationSeconds now rest ipMap

def isIpBlocked (ip : Ip) (ipMap : IpMap) (excludedIps : List Ip)
    (maxConnections blockDurationSeconds : Int) (now : Int) : Writer (IpMap × Bool) :=
  if ip ∈ excludedIps then ([⟨"Исключённый IP: " ++ ip, "proxy"⟩], ipMap, false)
  else
    let (lines, ipMap) := pruneLoop blockDurationSeconds now ipMap.entries ipMap
    if ip ∉ ipMap then (lines, ipMap, false)
    else
      let (ipMap, e) := subscript ipMap ip
      if e.count ≥ maxConnections then
        (lines ++ [⟨"IP заблокирован: " ++ ip, "error"⟩], ipMap, true)
      else (lines, ipMap, false)

def addIpConnection (ip : Ip) (l : Limiter) (excludedIps : List Ip) (maxConnections : Int)
    (now : Int) : Writer Limiter :=
  if ip ∈ excludedIps then ([⟨"Исключённый IP: " ++ ip, "proxy"⟩], l)
  else if ip ∉ l.ipMap then
    ([⟨"Новое подключение от IP: " ++ ip, "proxy"⟩],
      { l with
        ipMap := l.ipMap.insert ip ⟨1, now⟩
        totalConnections := l.totalConnections + 1 })
  else
    let (ipMap, e) := subscript l.ipMap ip
    if e.count < maxConnections then
      ([⟨"Увеличено количество подключений для IP: " ++ ip, "proxy"⟩],
        { l with
          ipMap := ipMap.insert ip ⟨e.count + 1, now⟩
          totalConnections := l.totalConnections + 1 })
    else ([], { l with ipMap := ipMap })

/-- `what` is the text of the exception that the catch block logs. -/
def forward (clientIp : Ip) (bytesReceived : Nat) (env : Surroundings) (what : String) :
    Writer Outcome :=
  match Qwin.forward bytesReceived env with
  | .failed =>
    ([⟨"Ошибка обработки пакета от IP: " ++ clientIp ++ ": " ++ what, "error"⟩], .failed)
  | out => ([], out)

def handleIncomingPacket (lim : Limits) (clientEndpoint : Endpoint) (bytesReceived : Nat)
    (env : Surroundings) (what : String) (l : Limiter) : Writer (Outcome × Limiter) :=
  let clientIp := clientEndpoint.address
  let clientPort := clientEndpoint.port
  let (lines, ipMap, blocked) := isIpBlocked clientIp l.ipMap lim.excludedIps lim.maxConnections
    lim.blockDurationSeconds env.checkTime
  let l := { l with ipMap := ipMap }
  if blocked then (lines ++ [⟨"IP заблокирован: " ++ clientIp, "error"⟩], .refused, l)
  else
    let (added, l) := addIpConnection clientIp l lim.excludedIps lim.maxConnections env.addTime
    let (failure, out) := forward clientIp bytesReceived env what
    (lines ++ added ++
      [⟨"Получен пакет от клиента " ++ clientIp ++ ":" ++ toString clientPort.toNat, "proxy"⟩] ++
        failure, out, l)

section Erasure
variable (d now : Int) (ip : Ip)

theorem pruneLoop_snd (rest : List (Sigma fun _ : Ip => Entry)) (ipMap : IpMap) :
    (pruneLoop d now rest ipMap).2 = Qwin.pruneLoop d now rest ipMap := by
  induction rest generalizing ipMap with
  | nil => rfl
  | cons it rest ih =>
    unfold pruneLoop Qwin.pruneLoop
    split
    · exact ih _
    · exact ih _

theorem isIpBlocked_snd (ipMap : IpMap) (excludedIps : List Ip) (maxConnections : Int) :
    (isIpBlocked ip ipMap excludedIps maxConnections d now).2 =
      Qwin.isIpBlocked ip ipMap excludedIps maxConnections d now := by
  unfold isIpBlocked Qwin.isIpBlocked Qwin.prune
  rw [← pruneLoop_snd]
  split
  · rfl
  · dsimp only
    split
    · rfl
    · split <;> rfl

theorem addIpConnection_snd (l : Limiter) (excludedIps : List Ip) (maxConnections : Int) :
    (addIpConnection ip l excludedIps maxConnections now).2 =
      Qwin.addIpConnection ip l excludedIps maxConnections now := by
  unfold addIpConnection Qwin.addIpConnection
  split
  · rfl
  · split
    · rfl
    · dsimp only
      split <;> rfl

theorem forward_snd (bytesReceived : Nat) (env : Surroundings) (what : String) :
    (forward ip bytesReceived env what).2 = Qwin.forward bytesReceived env := by
  unfold forward
  split
  · rename_i hfailed
    exact hfailed.symm
  · rfl

/-- Writing the log changes nothing else. -/
theorem handleIncomingPacket_snd (lim : Limits) (client : Endpoint) (bytesReceived : Nat)
    (env : Surroundings) (what : String) (l : Limiter) :
    (handleIncomingPacket lim client bytesReceived env what l).2 =
      Qwin.handleIncomingPacket lim client bytesReceived env l := by
  unfold handleIncomingPacket Qwin.handleIncomingPacket
  dsimp only
  rw [← isIpBlocked_snd]
  split
  · rfl
  · rw [← addIpConnection_snd, ← forward_snd client.address bytesReceived env what]

end Erasure

end Logged

/-- What the lines of the limiter and of the packet handler are about. -/
inductive LogKind where
  | excluded | expired | created | counted | received | blocked | failed
  deriving DecidableEq, Repr

def LogKind.label : LogKind → String
  | .excluded => "Исключённый IP: "
  | .expired => "Удаление устаревшей записи для IP: "
  | .created => "Новое подключение от IP: "
  | .counted => "Увеличено количество подключений для IP: "
  | .received => "Получен пакет от клиента "
  | .blocked => "IP заблокирован: "
  | .failed => "Ошибка обработки пакета от IP: "

def LogKind.baseName : LogKind → String
  | .blocked | .failed => "error"
  | _ => "proxy"

def LogKind.line (kind : LogKind) (text : String) : LogLine := ⟨kind.label ++ text, kind.baseName⟩

def LogKind.all : List LogKind :=
  [.excluded, .expired, .created, .counted, .received, .blocked, .failed]

def LogKind.tags : List (LogKind × List Char) :=
  LogKind.all.map fun kind => (kind, kind.label.toList)

theorem tags_prefixFree : Tags.PrefixFree LogKind.tags := by decide +kernel

/-- The kind of a line, and the text behind its label. -/
def LogLine.read (line : LogLine) : Option (LogKind × String) :=
  (Tags.read LogKind.tags line.message.toList).map fun (kind, text) => (kind, String.ofList text)

@[simp] theorem read_line (kind : LogKind) (text : String) :
    (kind.line text).read = some (kind, text) := by
  have hmem : (kind, kind.label.toList) ∈ LogKind.tags := by
    unfold LogKind.tags
    refine List.mem_map.mpr ⟨kind, ?_, rfl⟩
    cases kind <;> decide
  simp [LogLine.read, LogKind.line, Tags.read_tag tags_prefixFree hmem]

def Endpoint.text (e : Endpoint) : String := e.address ++ ":" ++ toString e.port.toNat

/-- The lines of the pruning loop, in its order. -/
def expiredLines (lim : Limits) (now : Int) (ipMap : IpMap) : List LogLine :=
  (Logged.pruneLoop lim.blockDurationSeconds now ipMap.entries ipMap).1

def failureLines (p : Packet) (what : String) (out : Outcome) : List LogLine :=
  if out = .failed then [LogKind.failed.line (p.ip ++ ": " ++ what)] else []

def packetLines (lim : Limits) (p : Packet) (what : String) (l : Limiter) : List LogLine :=
  (Logged.handleIncomingPacket lim p.client p.bytesReceived p.env what l).1

section Lines
variable (lim : Limits) (ip : Ip) (now : Int)

theorem blockedLines_excluded (ipMap : IpMap) (hip : ip ∈ lim.excludedIps) :
    (Logged.isIpBlocked ip ipMap lim.excludedIps lim.maxConnections lim.blockDurationSeconds
      now).1 = [LogKind.excluded.line ip] := by
  unfold Logged.isIpBlocked
  rw [if_pos hip]
  rfl

theorem blockedLines_limited (ipMap : IpMap) (hip : ip ∉ lim.excludedIps) :
    (Logged.isIpBlocked ip ipMap lim.excludedIps lim.maxConnections lim.blockDurationSeconds
      now).1 =
      expiredLines lim now ipMap ++
        if (isIpBlocked ip ipMap lim.excludedIps lim.maxConnections lim.blockDurationSeconds
          now).2 then [LogKind.blocked.line ip] else [] := by
  rw [← Logged.isIpBlocked_snd]
  unfold Logged.isIpBlocked expiredLines
  rw [if_neg hip]
  dsimp only
  split
  · exact (List.append_nil _).symm
  · split
    · rfl
    · exact (List.append_nil _).symm

theorem addLines_excluded (l : Limiter) (hip : ip ∈ lim.excludedIps) :
    (Logged.addIpConnection ip l lim.excludedIps lim.maxConnections now).1 =
      [LogKind.excluded.line ip] := by
  unfold Logged.addIpConnection
  rw [if_pos hip]
  rfl

theorem addLines_absent (l : Limiter) (hip : ip ∉ lim.excludedIps)
    (he : l.ipMap.lookup ip = none) :
    (Logged.addIpConnection ip l lim.excludedIps lim.maxConnections now).1 =
      [LogKind.created.line ip] := by
  unfold Logged.addIpConnection
  rw [if_neg hip, if_pos (AList.lookup_eq_none.mp he)]
  rfl

theorem addLines_present (l : Limiter) (hip : ip ∉ lim.excludedIps) {e : Entry}
    (he : l.ipMap.lookup ip = some e) (hlt : e.count < lim.maxConnections) :
    (Logged.addIpConnection ip l lim.excludedIps lim.maxConnections now).1 =
      [LogKind.counted.line ip] := by
  have hmem : ip ∈ l.ipMap := by simp [← AList.lookup_isSome, he]
  unfold Logged.addIpConnection
  rw [if_neg hip, if_neg (not_not.mpr hmem)]
  simp [subscript, he, hlt]
  rfl

theorem forward_fst (p : Packet) (what : String) :
    (Logged.forward p.ip p.bytesReceived p.env what).1 =
      failureLines p what (forward p.bytesReceived p.env) := by
  unfold Logged.forward failureLines
  split
  · rename_i hfailed
    rw [hfailed, if_pos rfl]
    simp [LogKind.line, LogKind.label, LogKind.baseName, String.append_assoc]
  · rename_i hfailed
    rw [if_neg hfailed]

end Lines

end Qwin
