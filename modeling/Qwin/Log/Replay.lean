import Qwin.Log.Journal

/-!
The proxy log as a journal of the limiter's table: whoever reads it from the start
knows every count, and how many packets were refused, excluded or let through.
-/

set_option autoImplicit false

namespace Qwin
open Runs

/-- The four ways of `Handled`, with what each of them writes to the log. -/
inductive Reported (lim : Limits) (p : Packet) (l : Limiter) (what : String) :
    List LogLine → Outcome → Limiter → Prop where
  | excluded {out : Outcome} (hip : p.ip ∈ lim.excludedIps) (hout : out ≠ .refused) :
      Reported lim p l what
        ([LogKind.excluded.line p.ip, LogKind.excluded.line p.ip,
          LogKind.received.line p.client.text] ++ failureLines p what out) out l
  | refused {e : Entry} (hip : p.ip ∉ lim.excludedIps)
      (he : lim.fresh p.checkTime (l.ipMap.lookup p.ip) = some e)
      (hfull : lim.maxConnections ≤ e.count) :
      Reported lim p l what
        (expiredLines lim p.checkTime l.ipMap ++
          [LogKind.blocked.line p.ip, LogKind.blocked.line p.ip])
        .refused { l with ipMap := lim.prune p.checkTime l.ipMap }
  | created {out : Outcome} (hip : p.ip ∉ lim.excludedIps)
      (he : lim.fresh p.checkTime (l.ipMap.lookup p.ip) = none) (hout : out ≠ .refused) :
      Reported lim p l what
        (expiredLines lim p.checkTime l.ipMap ++
          [LogKind.created.line p.ip, LogKind.received.line p.client.text] ++
          failureLines p what out) out
        ⟨(lim.prune p.checkTime l.ipMap).insert p.ip ⟨1, p.addTime⟩,
          l.totalConnections + 1, l.blockedConnections⟩
  | counted {out : Outcome} {e : Entry} (hip : p.ip ∉ lim.excludedIps)
      (he : lim.fresh p.checkTime (l.ipMap.lookup p.ip) = some e)
      (hlt : e.count < lim.maxConnections) (hout : out ≠ .refused) :
      Reported lim p l what
        (expiredLines lim p.checkTime l.ipMap ++
          [LogKind.counted.line p.ip, LogKind.received.line p.client.text] ++
          failureLines p what out) out
        ⟨(lim.prune p.checkTime l.ipMap).insert p.ip ⟨e.count + 1, p.addTime⟩,
          l.totalConnections + 1, l.blockedConnections⟩

theorem packetLines_eq (lim : Limits) (p : Packet) (what : String) (l : Limiter) :
    packetLines lim p what l =
      let checked := isIpBlocked p.ip l.ipMap lim.excludedIps lim.maxConnections
        lim.blockDurationSeconds p.checkTime
      let lines := (Logged.isIpBlocked p.ip l.ipMap lim.excludedIps lim.maxConnections
        lim.blockDurationSeconds p.checkTime).1
      if checked.2 then lines ++ [LogKind.blocked.line p.ip]
      else lines ++
        (Logged.addIpConnection p.ip { l with ipMap := checked.1 } lim.excludedIps
          lim.maxConnections p.addTime).1 ++
        [LogKind.received.line p.client.text] ++
        failureLines p what (forward p.bytesReceived p.env) := by
  have htext : LogKind.received.line p.client.text = ⟨"Получен пакет от клиента " ++ p.ip ++ ":" ++
      toString p.client.port.toNat, "proxy"⟩ := by
    simp [LogKind.line, LogKind.label, LogKind.baseName, Endpoint.text, Packet.ip,
      String.append_assoc]
  rw [← Logged.isIpBlocked_snd, htext, ← forward_fst]
  unfold packetLines Logged.handleIncomingPacket Packet.ip Packet.checkTime Packet.addTime
  dsimp only
  split <;> rfl

theorem packet_reported (lim : Limits) (p : Packet) (what : String) (l : Limiter) :
    Reported lim p l what (packetLines lim p what l) (p.handle lim l).1 (p.handle lim l).2 := by
  have hfwd := forward_ne_refused p.bytesReceived p.env
  rw [packetLines_eq, handle_eq]
  by_cases hip : p.ip ∈ lim.excludedIps
  · rw [isIpBlocked_excluded lim _ _ _ hip, blockedLines_excluded lim _ _ _ hip]
    simp only [Bool.false_eq_true, if_false, addIpConnection_excluded lim _ _ _ hip,
      addLines_excluded lim _ _ _ hip]
    exact .excluded hip hfwd
  rw [blockedLines_limited lim _ _ _ hip]
  cases he : lim.fresh p.checkTime (l.ipMap.lookup p.ip) with
  | none =>
    have habsent : (lim.prune p.checkTime l.ipMap).lookup p.ip = none := by simpa using he
    rw [isIpBlocked_absent lim _ _ _ hip he]
    simp only [Bool.false_eq_true, if_false, List.append_nil]
    rw [addIpConnection_absent lim _ _ _ hip habsent, addLines_absent lim _ _ _ hip habsent,
      List.append_assoc (expiredLines _ _ _)]
    exact .created hip he hfwd
  | some e =>
    have hpresent : (lim.prune p.checkTime l.ipMap).lookup p.ip = some e := by simpa using he
    rw [isIpBlocked_present lim _ _ _ hip he]
    by_cases hfull : lim.maxConnections ≤ e.count
    · simp only [hfull, decide_true, if_true, List.append_assoc]
      exact .refused hip he hfull
    · have hlt : e.count < lim.maxConnections := by omega
      simp only [hfull, decide_false, Bool.false_eq_true, if_false, List.append_nil]
      rw [addIpConnection_present lim _ _ _ hip hpresent hlt,
        addLines_present lim _ _ _ hip hpresent hlt, List.append_assoc (expiredLines _ _ _)]
      exact .counted hip he hlt hfwd

/-- The counts as a reader of the log keeps them. -/
def replayLine (counts : Ip → Option Int) (line : LogLine) : Ip → Option Int :=
  match line.read with
  | some (.created, ip) => Function.update counts ip (some 1)
  | some (.counted, ip) => Function.update counts ip ((counts ip).map (· + 1))
  | some (.expired, ip) => Function.update counts ip none
  | _ => counts

def replay (counts : Ip → Option Int) (lines : List LogLine) : Ip → Option Int :=
  lines.foldl replayLine counts

def countsOf (ipMap : IpMap) (ip : Ip) : Option Int := (ipMap.lookup ip).map Entry.count

section Replaying
variable (counts : Ip → Option Int)

theorem replay_append (lines more : List LogLine) :
    replay counts (lines ++ more) = replay (replay counts lines) more := List.foldl_append

theorem replay_failureLines (p : Packet) (what : String) (out : Outcome) :
    replay counts (failureLines p what out) = counts := by
  unfold failureLines replay
  split
  · simp [replayLine]
  · rfl

theorem countsOf_erase (ipMap : IpMap) (key : Ip) :
    countsOf (ipMap.erase key) = Function.update (countsOf ipMap) key none := by
  funext ip
  by_cases h : ip = key
  · subst h
    simp [countsOf]
  · simp [countsOf, AList.lookup_erase_ne h, Function.update_of_ne h]

theorem countsOf_insert (ipMap : IpMap) (key : Ip) (e : Entry) :
    countsOf (ipMap.insert key e) = Function.update (countsOf ipMap) key (some e.count) := by
  funext ip
  by_cases h : ip = key
  · subst h
    simp [countsOf]
  · simp [countsOf, AList.lookup_insert_ne h, Function.update_of_ne h]

theorem replay_pruneLoop (d now : Int) (rest : List (Sigma fun _ : Ip => Entry)) (ipMap : IpMap) :
    replay (countsOf ipMap) (Logged.pruneLoop d now rest ipMap).1 =
      countsOf (pruneLoop d now rest ipMap) := by
  induction rest generalizing ipMap with
  | nil => rfl
  | cons it rest ih =>
    unfold Logged.pruneLoop pruneLoop
    split
    · have hline : replayLine (countsOf ipMap)
          ⟨"Удаление устаревшей записи для IP: " ++ it.1, "proxy"⟩ =
          countsOf (ipMap.erase it.1) := by
        have hread := read_line .expired it.1
        rw [replayLine, show (⟨"Удаление устаревшей записи для IP: " ++ it.1, "proxy"⟩ : LogLine) =
          LogKind.expired.line it.1 from rfl, hread, countsOf_erase]
      rw [← ih (ipMap.erase it.1), ← hline]
      rfl
    · exact ih ipMap

theorem replay_expiredLines (lim : Limits) (now : Int) (ipMap : IpMap) :
    replay (countsOf ipMap) (expiredLines lim now ipMap) = countsOf (lim.prune now ipMap) :=
  replay_pruneLoop _ _ _ _

end Replaying

/-- What a packet's lines say of the counts is what its handler did to them. -/
theorem replay_reported {lim : Limits} {p : Packet} {l l' : Limiter} {what : String}
    {lines : List LogLine} {out : Outcome} (h : Reported lim p l what lines out l') :
    replay (countsOf l.ipMap) lines = countsOf l'.ipMap := by
  cases h with
  | excluded _ _ =>
    rw [replay_append, replay_failureLines]
    simp [replay, replayLine]
  | refused _ _ _ =>
    rw [replay_append, replay_expiredLines]
    simp [replay, replayLine]
  | created _ _ _ =>
    rw [replay_append, replay_failureLines, replay_append, replay_expiredLines, countsOf_insert]
    simp [replay, replayLine]
  | @counted _ e _ he _ _ =>
    have hcount : countsOf (lim.prune p.checkTime l.ipMap) p.ip = some e.count := by
      rw [countsOf, lim.lookup_prune, he]
      rfl
    rw [replay_append, replay_failureLines, replay_append, replay_expiredLines, countsOf_insert]
    simp [replay, replayLine, hcount]

def LogLine.kind (line : LogLine) : Option LogKind := line.read.map (·.1)

@[simp] theorem kind_line (kind : LogKind) (text : String) :
    (kind.line text).kind = some kind := by
  simp [LogLine.kind]

def countKind (kind : LogKind) (lines : List LogLine) : Nat :=
  lines.countP fun line => line.kind = some kind

theorem countKind_append (kind : LogKind) (lines more : List LogLine) :
    countKind kind (lines ++ more) = countKind kind lines + countKind kind more :=
  List.countP_append

theorem countKind_cons (kind kind' : LogKind) (text : String) (lines : List LogLine) :
    countKind kind (kind'.line text :: lines) =
      countKind kind lines + if kind' = kind then 1 else 0 := by
  simp [countKind, List.countP_cons]

@[simp] theorem countKind_nil (kind : LogKind) : countKind kind [] = 0 := rfl

theorem countKind_failureLines {kind : LogKind} (hkind : kind ≠ .failed) (p : Packet)
    (what : String) (out : Outcome) : countKind kind (failureLines p what out) = 0 := by
  unfold failureLines
  split
  · rw [countKind_cons, if_neg (Ne.symm hkind), countKind_nil]
  · rfl

theorem countKind_expiredLines {kind : LogKind} (hkind : kind ≠ .expired) (lim : Limits) (now : Int)
    (ipMap : IpMap) : countKind kind (expiredLines lim now ipMap) = 0 := by
  unfold expiredLines
  generalize ipMap.entries = rest
  induction rest generalizing ipMap with
  | nil => rfl
  | cons it rest ih =>
    unfold Logged.pruneLoop
    split
    · have hrest := ih (ipMap.erase it.1)
      have hcons := countKind_cons kind .expired it.1
        (Logged.pruneLoop lim.blockDurationSeconds now rest (ipMap.erase it.1)).1
      rw [if_neg (Ne.symm hkind), hrest] at hcons
      exact hcons
    · exact ih ipMap

/-- How many lines of each kind a packet adds. A refusal is reported by the check and
by its caller, an excluded address by the check and by the update. -/
structure Counted (lim : Limits) (p : Packet) (lines : List LogLine) (out : Outcome) : Prop where
  blocked : countKind .blocked lines = 2 * if out = .refused then 1 else 0
  excluded : countKind .excluded lines = 2 * if p.ip ∈ lim.excludedIps then 1 else 0
  received : countKind .received lines = if out ≠ .refused then 1 else 0
  connections : countKind .created lines + countKind .counted lines =
    if p.ip ∉ lim.excludedIps ∧ out ≠ .refused then 1 else 0

theorem reported_counted {lim : Limits} {p : Packet} {l l' : Limiter} {what : String}
    {lines : List LogLine} {out : Outcome} (h : Reported lim p l what lines out l') :
    Counted lim p lines out := by
  have hfailure : ∀ kind, kind ≠ .failed → countKind kind (failureLines p what out) = 0 :=
    fun kind hkind => countKind_failureLines hkind p what out
  have hexpired : ∀ kind, kind ≠ .expired →
      countKind kind (expiredLines lim p.checkTime l.ipMap) = 0 :=
    fun kind hkind => countKind_expiredLines hkind lim p.checkTime l.ipMap
  cases h with
  | excluded hip hout =>
    constructor <;> simp [countKind_cons, hfailure, hip, hout]
  | refused hip _ _ =>
    constructor <;> simp [countKind_append, countKind_cons, hexpired, hip]
  | created hip _ hout | counted hip _ _ hout =>
    constructor <;> simp [countKind_append, countKind_cons, hexpired, hfailure, hip, hout]

section Runs
variable (lim : Limits) (what : Handling → String)

/-- All lines of a run, in order. `what` is the text of each exception. -/
def journal (tr : List Handling) : List LogLine :=
  tr.flatMap fun t => packetLines lim t.input (what t) t.pre.limiter

/-- What the log of a run says of the state that it ends in. -/
structure Tells (tr : List Handling) (u : LimiterState) : Prop where
  table : ∀ ip, replay (fun _ => none) (journal lim what tr) ip = (u.entry ip).map Entry.count
  total : u.limiter.totalConnections = .ofNat
    (countKind .created (journal lim what tr) + countKind .counted (journal lim what tr))
  refused : countKind .blocked (journal lim what tr) = 2 * tr.countP refused
  excluded : countKind .excluded (journal lim what tr) =
    2 * tr.countP fun t => t.input.ip ∈ lim.excludedIps
  received : countKind .received (journal lim what tr) = tr.countP fun t => t.output ≠ .refused

variable {lim}

theorem step_reported {t : Handling} (ht : step lim t.pre t.input = some (t.output, t.post)) :
    Reported lim t.input t.pre.limiter (what t) (packetLines lim t.input (what t) t.pre.limiter)
      t.output t.post.limiter := by
  obtain ⟨-, -, -, hh⟩ := step_eq_some.mp ht
  simpa [hh] using packet_reported lim t.input (what t) t.pre.limiter

theorem replay_run {s : LimiterState} {tr : List Handling} (hrun : IsRun (step lim) s tr) :
    replay (countsOf s.limiter.ipMap) (journal lim what tr) =
      countsOf (final s tr).limiter.ipMap := by
  refine hrun.history (fun hist u => replay (countsOf s.limiter.ipMap) (journal lim what hist) =
    countsOf u.limiter.ipMap) rfl ?_
  intro hist t ih ht
  have hline := replay_reported (step_reported what ht)
  rw [← ih, ← replay_append] at hline
  simpa [journal] using hline

/-- A number that is added up over the lines is added up over the packets. -/
theorem sum_journal {f : List LogLine → Nat} (hnil : f [] = 0)
    (happend : ∀ lines more, f (lines ++ more) = f lines + f more) (k : Nat)
    (p : Handling → Bool) {s : LimiterState} {tr : List Handling} (hrun : IsRun (step lim) s tr)
    (hstep : ∀ t : Handling, step lim t.pre t.input = some (t.output, t.post) →
      f (packetLines lim t.input (what t) t.pre.limiter) = k * if p t then 1 else 0) :
    f (journal lim what tr) = k * tr.countP p := by
  refine hrun.history (fun hist _ => f (journal lim what hist) = k * hist.countP p) hnil ?_
  intro hist t ih ht
  have hone := hstep t ht
  simp only [journal, List.flatMap_append, List.flatMap_singleton, happend,
    List.countP_append, List.countP_singleton, Nat.mul_add] at ih ⊢
  rw [ih, hone]

/-- The log of a run tells the table it leaves, each count and the number of
connections, and how many packets were refused, excluded and let through. -/
theorem journal_tells {s : LimiterState} (hempty : s.limiter.ipMap = ∅)
    (hzero : s.limiter.totalConnections = 0) {tr : List Handling}
    (hrun : IsRun (step lim) s tr) : Tells lim what tr (final s tr) := by
  have hcounted := fun (t : Handling) (ht : step lim t.pre t.input = some (t.output, t.post)) =>
    reported_counted (step_reported what ht)
  refine ⟨fun ip => ?_, ?_, ?_, ?_, ?_⟩
  · have hreplay := replay_run what hrun
    rw [hempty] at hreplay
    exact congrFun hreplay ip
  · have hconnections := sum_journal what
      (f := fun lines => countKind .created lines + countKind .counted lines) rfl
      (fun lines more => by simp only [countKind_append]; omega) 1 (admitted lim) hrun
      fun t ht => by simpa [admitted, limited] using (hcounted t ht).connections
    rw [(run_counters hrun).1, hzero, hconnections, Nat.one_mul, Int32.zero_add]
  · refine sum_journal what rfl (countKind_append .blocked) 2 _ hrun fun t ht => ?_
    simpa [refused] using (hcounted t ht).blocked
  · refine sum_journal what rfl (countKind_append .excluded) 2 _ hrun fun t ht => ?_
    simpa using (hcounted t ht).excluded
  · have hreceived := sum_journal what rfl (countKind_append .received) 1
      (fun t => t.output ≠ .refused) hrun fun t ht => by simpa using (hcounted t ht).received
    rwa [Nat.one_mul] at hreceived

end Runs

theorem journal_tells_refusal :
    Tells ⟨[], 1, 60⟩ (fun _ => "") refusedPacket (final (.start 0) refusedPacket) :=
  journal_tells (fun _ => "") rfl rfl (isRun_trace _ _)

end Qwin
