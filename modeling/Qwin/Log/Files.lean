import Mathlib.Tactic.IntervalCases
import Qwin.Library.Lines
import Qwin.Library.Utf8
import Qwin.Log.Replay

/-!
`logMessage` and the files it appends to, one for each base name and day. Who reads
the files of a base name in the order of their days has all messages in order that
were written. A message is lost where its file does not open, which `cerr` tells, and
where the write fails afterwards, which nothing tells.
-/

set_option autoImplicit false

namespace Qwin
open Runs Lines Utf8

/-- What `localtime` makes of a reading of `time`, for years of four digits. -/
structure Tm where
  year : Nat
  month : Nat
  day : Nat
  hour : Nat
  minute : Nat
  second : Nat
  year_range : 1000 ≤ year ∧ year ≤ 9999
  month_range : 1 ≤ month ∧ month ≤ 12
  day_range : 1 ≤ day ∧ day ≤ 31
  hour_lt : hour < 24
  minute_lt : minute < 60
  second_le : second ≤ 60

def twoDigits (n : Nat) : List Char := [Nat.digitChar (n / 10), Nat.digitChar (n % 10)]

def fourDigits (n : Nat) : List Char := twoDigits (n / 100) ++ twoDigits (n % 100)

/-- `%Y-%m-%d`. -/
def Tm.date (now : Tm) : String :=
  String.ofList (fourDigits now.year ++ '-' :: twoDigits now.month ++ '-' :: twoDigits now.day)

/-- `%Y-%m-%d %H:%M:%S`, which with its end just fits into `timestamp`. -/
def Tm.timestamp (now : Tm) : String :=
  now.date ++ String.ofList (' ' :: twoDigits now.hour ++ ':' :: twoDigits now.minute ++
    ':' :: twoDigits now.second)

def getLogFileName (baseName : String) (now : Tm) : String :=
  baseName ++ "_" ++ now.date ++ ".log"

/-- Two names may be two paths to one file. -/
structure LogFiles (File : Type) where
  contents : File → List UInt8
  cerr : List String

/-- A call with what it meets: the two readings of the time, whether the file opens, and
how many bytes of the line come into it. -/
structure LogCall where
  line : LogLine
  named : Tm
  stamped : Tm
  opens : Bool
  taken : Nat

section Files
variable {File : Type} [DecidableEq File] (locate : String → File)

/-- `time` is read twice, once for the name of the file and once for the line. The stream
is not asked again after the write. -/
def logMessage (line : LogLine) (named stamped : Tm) (opens : Bool) (taken : Nat)
    (s : LogFiles File) : LogFiles File :=
  let logFile := getLogFileName line.logBaseName named
  if !opens then
    { s with cerr := s.cerr ++ ["Не удалось открыть файл логов: " ++ logFile] }
  else
    let text := "[" ++ stamped.timestamp ++ "] " ++ line.message ++ "\n"
    { s with
      contents := Function.update s.contents (locate logFile)
        (s.contents (locate logFile) ++ (utf8 text).take taken) }

def LogCall.run (s : LogFiles File) (call : LogCall) : LogFiles File :=
  logMessage locate call.line call.named call.stamped call.opens call.taken s

/-- The files after these calls, if there were none of them before. -/
def written (calls : List LogCall) : LogFiles File :=
  calls.foldl (LogCall.run locate) ⟨fun _ => [], []⟩

/-- The messages of a file: its lines behind their time stamps. -/
def readMessages (content : List UInt8) : List (List UInt8) :=
  (splitLines 0x0A content).map fun line => line.drop 22

def readLog (files : LogFiles File) (baseName : String) (days : List Tm) : List (List UInt8) :=
  days.flatMap fun day => readMessages (files.contents (locate (getLogFileName baseName day)))

end Files

/-- Days compare as their numbers do. -/
def Tm.dayNumber (now : Tm) : Nat := (now.year * 100 + now.month) * 100 + now.day

section Dates
variable {now later : Tm}

theorem digitChar_inj {m n : Nat} (hm : m < 10) (hn : n < 10)
    (h : Nat.digitChar m = Nat.digitChar n) : m = n := by
  interval_cases m <;> interval_cases n <;> first | rfl | exact absurd h (by decide)

theorem twoDigits_inj {m n : Nat} (hm : m < 100) (hn : n < 100) (h : twoDigits m = twoDigits n) :
    m = n := by
  obtain ⟨htens, hones⟩ : Nat.digitChar (m / 10) = Nat.digitChar (n / 10) ∧
      Nat.digitChar (m % 10) = Nat.digitChar (n % 10) := by simpa [twoDigits] using h
  have htens' := digitChar_inj (by omega) (by omega) htens
  have hones' := digitChar_inj (by omega) (by omega) hones
  omega

def Visible (text : List Char) : Prop := ∀ c ∈ text, 0x20 ≤ c.toNat ∧ c.toNat ≤ 0x7F

theorem visible_twoDigits {n : Nat} (hn : n < 100) : Visible (twoDigits n) := by
  have hdigit : ∀ d < 10, 0x20 ≤ (Nat.digitChar d).toNat ∧ (Nat.digitChar d).toNat ≤ 0x7F := by
    decide
  intro c hc
  rcases List.mem_cons.mp hc with rfl | hc
  · exact hdigit _ (by omega)
  · obtain rfl := List.mem_singleton.mp hc
    exact hdigit _ (by omega)

theorem date_toList (now : Tm) : now.date.toList =
    twoDigits (now.year / 100) ++ (twoDigits (now.year % 100) ++
      ('-' :: (twoDigits now.month ++ ('-' :: twoDigits now.day)))) := by
  simp [Tm.date, fourDigits]

theorem length_date (now : Tm) : now.date.toList.length = 10 := by
  simp [date_toList, twoDigits]

theorem date_eq_iff : now.date = later.date ↔ now.dayNumber = later.dayNumber := by
  have hyear := now.year_range
  have hyear' := later.year_range
  have hmonth := now.month_range
  have hmonth' := later.month_range
  have hday := now.day_range
  have hday' := later.day_range
  constructor
  · intro h
    have hlist := congrArg String.toList h
    rw [date_toList, date_toList] at hlist
    obtain ⟨hcentury, hlist⟩ := List.append_inj hlist rfl
    obtain ⟨hrest, hlist⟩ := List.append_inj hlist rfl
    obtain ⟨hmonths, hlist⟩ := List.append_inj (List.cons.inj hlist).2 rfl
    have hdays := (List.cons.inj hlist).2
    have hcentury' := twoDigits_inj (by omega) (by omega) hcentury
    have hrest' := twoDigits_inj (by omega) (by omega) hrest
    have hmonths' := twoDigits_inj (by omega) (by omega) hmonths
    have hdays' := twoDigits_inj (by omega) (by omega) hdays
    unfold Tm.dayNumber
    omega
  · intro h
    unfold Tm.dayNumber at h
    have hsame : now.year = later.year ∧ now.month = later.month ∧ now.day = later.day := by omega
    unfold Tm.date
    rw [hsame.1, hsame.2.1, hsame.2.2]

/-- A name says which base name and which day it is for. -/
theorem getLogFileName_inj {baseName baseName' : String} :
    getLogFileName baseName now = getLogFileName baseName' later ↔
      baseName = baseName' ∧ now.dayNumber = later.dayNumber := by
  constructor
  · intro h
    have hlist := congrArg String.toList h
    simp only [getLogFileName, String.toList_append] at hlist
    obtain ⟨hlist, -⟩ := List.append_inj' hlist rfl
    obtain ⟨hlist, hdate⟩ := List.append_inj' hlist (by rw [length_date, length_date])
    obtain ⟨hbase, -⟩ := List.append_inj' hlist rfl
    exact ⟨String.toList_inj.mp hbase, date_eq_iff.mp (String.toList_inj.mp hdate)⟩
  · rintro ⟨rfl, hday⟩
    rw [getLogFileName, getLogFileName, date_eq_iff.mpr hday]

theorem timestamp_toList (now : Tm) : now.timestamp.toList = now.date.toList ++
    (' ' :: (twoDigits now.hour ++ (':' :: (twoDigits now.minute ++
      (':' :: twoDigits now.second))))) := by
  simp [Tm.timestamp]

theorem length_timestamp (now : Tm) : now.timestamp.toList.length = 19 := by
  simp [timestamp_toList, length_date, twoDigits]

theorem visible_timestamp (now : Tm) : Visible now.timestamp.toList := by
  have hyear := now.year_range
  have hmonth := now.month_range
  have hday := now.day_range
  have hhour := now.hour_lt
  have hminute := now.minute_lt
  have hsecond := now.second_le
  have hcentury := visible_twoDigits (show now.year / 100 < 100 by omega)
  have hyears := visible_twoDigits (show now.year % 100 < 100 by omega)
  have hmonths := visible_twoDigits (show now.month < 100 by omega)
  have hdays := visible_twoDigits (show now.day < 100 by omega)
  have hhours := visible_twoDigits (show now.hour < 100 by omega)
  have hminutes := visible_twoDigits (show now.minute < 100 by omega)
  have hseconds := visible_twoDigits (show now.second < 100 by omega)
  unfold Visible at *
  rw [timestamp_toList, date_toList]
  simp only [List.forall_mem_append, List.forall_mem_cons]
  exact ⟨⟨hcentury, hyears, by decide, hmonths, by decide, hdays⟩, by decide, hhours, by decide,
    hminutes, by decide, hseconds⟩

end Dates

/-- The call's line, without the end of it and with it. -/
def LogCall.text (call : LogCall) : List UInt8 :=
  utf8 ("[" ++ call.stamped.timestamp ++ "] " ++ call.line.message)

def LogCall.bytes (call : LogCall) : List UInt8 := call.text ++ [0x0A]

def LogCall.kept (call : LogCall) : Bool := call.opens && call.bytes.length ≤ call.taken

/-- Some of the line is written, but not all. -/
def LogCall.Torn (call : LogCall) : Prop :=
  call.opens = true ∧ 0 < call.taken ∧ call.taken < call.bytes.length

instance (call : LogCall) : Decidable call.Torn := inferInstanceAs (Decidable (_ ∧ _))

/-- The program's own base names are "proxy", "error", "server" and "system". -/
def PlainName (baseName : String) : Prop := ∀ c ∈ baseName.toList, c.isLower = true

instance (baseName : String) : Decidable (PlainName baseName) :=
  List.decidableBAll _ baseName.toList

section Calls
variable {File : Type}

/-- The files of plain base names are not one under two names. -/
def SeparateFiles (locate : String → File) : Prop :=
  ∀ baseName baseName' now later, PlainName baseName → PlainName baseName' →
    locate (getLogFileName baseName now) = locate (getLogFileName baseName' later) →
    getLogFileName baseName now = getLogFileName baseName' later

/-- What makes the files of these days a log of the calls: every line is one line in a
file of its own name and is not torn, the days do not go back, and none is left out. -/
structure Legible (locate : String → File) (calls : List LogCall) (days : List Tm) : Prop where
  separate : SeparateFiles locate
  plain : ∀ call ∈ calls, PlainName call.line.logBaseName
  messages : ∀ call ∈ calls, 0x0A ∉ utf8 call.line.message
  whole : ∀ call ∈ calls, ¬ call.Torn
  clock : calls.Pairwise fun call later => call.named.dayNumber ≤ later.named.dayNumber
  ordered : days.Pairwise fun day later => day.dayNumber < later.dayNumber
  cover : ∀ call ∈ calls, ∃ day ∈ days, day.dayNumber = call.named.dayNumber

variable [DecidableEq File] {locate : String → File} {calls : List LogCall}

theorem bytes_eq (call : LogCall) : call.bytes =
    utf8 ("[" ++ call.stamped.timestamp ++ "] " ++ call.line.message ++ "\n") := by
  rw [LogCall.bytes, LogCall.text, utf8_append _ "\n"]
  rfl

theorem text_eq (call : LogCall) : call.text =
    0x5B :: call.stamped.timestamp.toList.map (fun c => .ofNat c.toNat) ++
      (0x5D :: 0x20 :: utf8 call.line.message) := by
  have hstamp := utf8_ascii fun c hc => (visible_timestamp call.stamped c hc).2
  rw [LogCall.text, utf8_append, utf8_append, utf8_append, hstamp, List.append_assoc]
  rfl

theorem drop_text (call : LogCall) : call.text.drop 22 = utf8 call.line.message := by
  rw [text_eq, List.cons_append, List.drop_succ_cons, List.drop_append, List.length_map,
    length_timestamp, List.drop_of_length_le (by rw [List.length_map, length_timestamp]; decide)]
  rfl

theorem newline_notMem_text {call : LogCall} (hmessage : 0x0A ∉ utf8 call.line.message) :
    0x0A ∉ call.text := by
  have hstamp : (0x0A : UInt8) ∉
      call.stamped.timestamp.toList.map fun c => (.ofNat c.toNat : UInt8) := by
    intro hmem
    obtain ⟨c, hc, heq⟩ := List.mem_map.mp hmem
    obtain ⟨hlo, hhi⟩ := visible_timestamp call.stamped c hc
    have hnat := congrArg UInt8.toNat heq
    rw [UInt8.toNat_ofNat'] at hnat
    simp only [UInt8.reduceToNat] at hnat
    omega
  rw [text_eq]
  simp [hstamp, hmessage]

def LogCall.appendsTo (locate : String → File) (call : LogCall) (file : File) : Bool :=
  call.opens ∧ locate (getLogFileName call.line.logBaseName call.named) = file

theorem contents_run (s : LogFiles File) (call : LogCall) (file : File) :
    (call.run locate s).contents file = s.contents file ++
      if call.appendsTo locate file then call.bytes.take call.taken else [] := by
  unfold LogCall.run logMessage LogCall.appendsTo
  rw [bytes_eq]
  cases hopens : call.opens with
  | false => simp
  | true =>
    by_cases hname : locate (getLogFileName call.line.logBaseName call.named) = file
    · subst hname
      simp
    · simp [hname, Function.update_of_ne (Ne.symm hname)]

theorem contents_written (calls : List LogCall) (file : File) :
    (written locate calls).contents file =
      (calls.filter (·.appendsTo locate file)).flatMap fun call => call.bytes.take call.taken := by
  induction calls using List.reverseRecOn with
  | nil => rfl
  | append_singleton calls call ih =>
    rw [written, List.foldl_concat, contents_run]
    rw [written] at ih
    rw [ih, List.filter_append, List.flatMap_append]
    by_cases h : call.appendsTo locate file = true <;> simp [h]

/-- A line that is not torn is in the file or has left nothing there. -/
theorem flatMap_taken (hwhole : ∀ call ∈ calls, ¬ call.Torn)
    (hopens : ∀ call ∈ calls, call.opens = true) :
    (calls.flatMap fun call => call.bytes.take call.taken) =
      (calls.filter LogCall.kept).flatMap LogCall.bytes := by
  induction calls with
  | nil => rw [List.filter_nil, List.flatMap_nil, List.flatMap_nil]
  | cons call calls ih =>
    obtain ⟨hcall, hcalls⟩ := List.forall_mem_cons.mp hwhole
    obtain ⟨hopen, hopens⟩ := List.forall_mem_cons.mp hopens
    have hrest := ih hcalls hopens
    by_cases hkept : call.bytes.length ≤ call.taken
    · have hin : call.kept = true := by simp [LogCall.kept, hopen, hkept]
      rw [List.flatMap_cons, List.filter_cons_of_pos hin, List.flatMap_cons, hrest,
        List.take_of_length_le hkept]
    · have hout : ¬ call.kept = true := by simp [LogCall.kept, hkept]
      have hnone : call.taken = 0 := by
        by_contra hsome
        exact hcall ⟨hopen, by omega, by omega⟩
      rw [List.flatMap_cons, List.filter_cons_of_neg hout, hrest, hnone, List.take_zero,
        List.nil_append]

theorem readMessages_written (hmessages : ∀ call ∈ calls, 0x0A ∉ utf8 call.line.message)
    (hwhole : ∀ call ∈ calls, ¬ call.Torn) (file : File) :
    readMessages ((written locate calls).contents file) =
      ((calls.filter (·.appendsTo locate file)).filter LogCall.kept).map
        fun call => utf8 call.line.message := by
  let mine := calls.filter (·.appendsTo locate file)
  have hcontents : (written locate calls).contents file =
      ((mine.filter LogCall.kept).map LogCall.text).flatMap fun line => line ++ [0x0A] := by
    rw [contents_written, List.flatMap_map]
    refine flatMap_taken (fun call hcall => hwhole call (List.mem_of_mem_filter hcall)) ?_
    intro call hcall
    have happends := (List.mem_filter.mp hcall).2
    simp only [LogCall.appendsTo, decide_eq_true_iff] at happends
    exact happends.1
  have hlines : ∀ line ∈ (mine.filter LogCall.kept).map LogCall.text, 0x0A ∉ line := by
    intro line hline
    obtain ⟨call, hcall, rfl⟩ := List.mem_map.mp hline
    have hmem := List.mem_of_mem_filter (List.mem_of_mem_filter hcall)
    exact newline_notMem_text (hmessages call hmem)
  rw [readMessages, hcontents, splitLines_flatMap hlines, List.map_map]
  refine List.map_congr_left fun call _ => ?_
  rw [Function.comp_apply, drop_text]

section Legible
variable {days : List Tm} (h : Legible locate calls days)
include h

theorem appendsTo_iff {baseName : String} (hplain : PlainName baseName) {call : LogCall}
    (hcall : call ∈ calls) (day : Tm) :
    call.appendsTo locate (locate (getLogFileName baseName day)) = true ↔
      call.opens = true ∧ call.line.logBaseName = baseName ∧
        call.named.dayNumber = day.dayNumber := by
  rw [LogCall.appendsTo, decide_eq_true_iff, ← getLogFileName_inj]
  constructor
  · rintro ⟨hopens, hsame⟩
    exact ⟨hopens, h.separate _ _ _ _ (h.plain call hcall) hplain hsame⟩
  · rintro ⟨hopens, hsame⟩
    exact ⟨hopens, congrArg locate hsame⟩

theorem readLog_written {baseName : String} (hplain : PlainName baseName) :
    readLog locate (written locate calls) baseName days =
      (calls.filter fun call => call.kept ∧ call.line.logBaseName = baseName).map
        fun call => utf8 call.line.message := by
  let kept := calls.filter fun call => call.kept ∧ call.line.logBaseName = baseName
  have hday : ∀ day : Tm,
      readMessages ((written locate calls).contents (locate (getLogFileName baseName day))) =
        (kept.filter (·.named.dayNumber = day.dayNumber)).map
          fun call => utf8 call.line.message := by
    intro day
    rw [readMessages_written h.messages h.whole, List.filter_filter, List.filter_filter]
    congr 1
    refine List.filter_congr fun call hcall => ?_
    have hopens : call.kept = true → call.opens = true := by
      simp [LogCall.kept]
      tauto
    rw [Bool.eq_iff_iff]
    simp only [decide_eq_true_iff, Bool.and_eq_true, appendsTo_iff h hplain hcall]
    tauto
  have hbuckets : ((days.map Tm.dayNumber).flatMap fun k => kept.filter (·.named.dayNumber = k)) =
      kept := by
    refine flatMap_filter (h.clock.filter _) (List.pairwise_map.mpr h.ordered) fun call hcall => ?_
    obtain ⟨day, hmem, heq⟩ := h.cover call (List.mem_of_mem_filter hcall)
    exact List.mem_map.mpr ⟨day, hmem, heq⟩
  rw [List.flatMap_map] at hbuckets
  unfold readLog
  rw [List.flatMap_congr fun day _ => hday day, ← List.map_flatMap, hbuckets]

end Legible

theorem cerr_written (locate : String → File) (calls : List LogCall) :
    (written locate calls).cerr = (calls.filter fun call => !call.opens).map fun call =>
      "Не удалось открыть файл логов: " ++ getLogFileName call.line.logBaseName call.named := by
  induction calls using List.reverseRecOn with
  | nil => rfl
  | append_singleton calls call ih =>
    rw [written, List.foldl_concat]
    rw [written] at ih
    rw [List.filter_append, List.map_append, ← ih]
    unfold LogCall.run logMessage
    cases hopens : call.opens <;> simp [hopens]

/-- What was logged under a base name comes back whole and in order, whatever else was
logged in between, except for the messages that were not written. Of those whose file
did not open `cerr` has the names of the files; of those whose write failed it has nothing. -/
theorem log_files_keep {days : List Tm} (h : Legible locate calls days) :
    (∀ baseName, PlainName baseName → readLog locate (written locate calls) baseName days =
      (calls.filter fun call => call.kept ∧ call.line.logBaseName = baseName).map
        fun call => utf8 call.line.message) ∧
    (written locate calls).cerr = (calls.filter fun call => !call.opens).map fun call =>
      "Не удалось открыть файл логов: " ++ getLogFileName call.line.logBaseName call.named :=
  ⟨fun _ hplain => readLog_written h hplain, cerr_written locate calls⟩

end Calls

def evening : Tm where
  year := 2025
  month := 2
  day := 14
  hour := 23
  minute := 59
  second := 59
  year_range := by decide
  month_range := by decide
  day_range := by decide
  hour_lt := by decide
  minute_lt := by decide
  second_le := by decide

def midnight : Tm where
  year := 2025
  month := 2
  day := 15
  hour := 0
  minute := 0
  second := 0
  year_range := by decide
  month_range := by decide
  day_range := by decide
  hour_lt := by decide
  minute_lt := by decide
  second_le := by decide

/-- The first line goes to the file of the 14th with a time stamp of the 15th. The third
finds its file closed and the fourth the disk full. -/
def overMidnight : List LogCall :=
  [⟨LogKind.created.line "10.0.0.1", evening, midnight, true, 200⟩,
    ⟨LogKind.received.line "10.0.0.1:27005", midnight, midnight, true, 200⟩,
    ⟨LogKind.blocked.line "10.0.0.1", midnight, midnight, false, 0⟩,
    ⟨LogKind.counted.line "10.0.0.1", midnight, midnight, true, 0⟩]

theorem log_files_keep_midnight :
    (∀ baseName, PlainName baseName →
      readLog id (written id overMidnight) baseName [evening, midnight] =
      (overMidnight.filter fun call => call.kept ∧ call.line.logBaseName = baseName).map
        fun call => utf8 call.line.message) ∧
    (written id overMidnight).cerr = (overMidnight.filter fun call => !call.opens).map fun call =>
      "Не удалось открыть файл логов: " ++ getLogFileName call.line.logBaseName call.named :=
  log_files_keep ⟨fun _ _ _ _ _ _ h => h, by decide +kernel, by decide +kernel, by decide +kernel,
    by decide, by decide, by decide⟩

/-- A line as the limiter and the packet handler write them. -/
def Labelled (line : LogLine) : Prop := ∃ kind text, line = LogKind.line kind text

theorem labelled_line (kind : LogKind) (text : String) : Labelled (kind.line text) :=
  ⟨kind, text, rfl⟩

section Reading
variable {lim : Limits} (what : Handling → String) {s : LimiterState} {tr : List Handling}

theorem labelled_expiredLines (now : Int) (ipMap : IpMap) :
    ∀ line ∈ expiredLines lim now ipMap, Labelled line := by
  unfold expiredLines
  generalize ipMap.entries = rest
  induction rest generalizing ipMap with
  | nil => nofun
  | cons it rest ih =>
    unfold Logged.pruneLoop
    split
    · exact List.forall_mem_cons.mpr ⟨labelled_line .expired it.1, ih _⟩
    · exact ih _

theorem labelled_failureLines (p : Packet) (text : String) (out : Outcome) :
    ∀ line ∈ failureLines p text out, Labelled line := by
  unfold failureLines
  split
  · exact List.forall_mem_singleton.mpr (labelled_line _ _)
  · nofun

theorem labelled_reported {p : Packet} {l l' : Limiter} {text : String} {lines : List LogLine}
    {out : Outcome} (h : Reported lim p l text lines out l') : ∀ line ∈ lines, Labelled line := by
  have hfailure := labelled_failureLines p text out
  have hexpired : ∀ line ∈ expiredLines lim p.checkTime l.ipMap, Labelled line :=
    labelled_expiredLines _ _
  cases h with
  | excluded | refused | created | counted =>
    simp only [List.forall_mem_append, List.forall_mem_cons, labelled_line, true_and]
    tauto

theorem labelled_journal (hrun : IsRun (step lim) s tr) :
    ∀ line ∈ journal lim what tr, Labelled line := by
  intro line hline
  obtain ⟨t, ht, hline⟩ := List.mem_flatMap.mp hline
  obtain ⟨-, -, -, -, -, hstep⟩ := hrun.split ht
  exact labelled_reported (step_reported what hstep) line hline

/-- A reader may leave out the lines that say nothing of the table. -/
theorem replay_filter {p : LogLine → Bool} {lines : List LogLine}
    (h : ∀ line ∈ lines, p line = false → ∀ counts, replayLine counts line = counts)
    (counts : Ip → Option Int) : replay counts (lines.filter p) = replay counts lines := by
  induction lines generalizing counts with
  | nil => rfl
  | cons line lines ih =>
    obtain ⟨hline, hlines⟩ := List.forall_mem_cons.mp h
    cases hp : p line with
    | true =>
      rw [List.filter_cons_of_pos hp]
      exact ih hlines _
    | false =>
      rw [List.filter_cons_of_neg (by simp [hp]), ih hlines, replay, replay, List.foldl_cons,
        hline hp]

theorem replayLine_of_unread {line : LogLine} (h : line.kind.isSome = false)
    (counts : Ip → Option Int) : replayLine counts line = counts := by
  have hread : line.read = none := by simpa [LogLine.kind] using h
  rw [replayLine, hread]

/-- The lines about the table go to the proxy's log. -/
theorem replayLine_of_error {line : LogLine} (hlabelled : Labelled line)
    (h : line.logBaseName ≠ "proxy") (counts : Ip → Option Int) :
    replayLine counts line = counts := by
  obtain ⟨kind, text, rfl⟩ := hlabelled
  cases kind with
  | blocked | failed | excluded | received => simp [replayLine]
  | expired | created | counted => exact absurd rfl h

/-- The lines as they come from the files of the proxy's log. -/
def readLines {File : Type} (locate : String → File) (files : LogFiles File) (days : List Tm) :
    List LogLine :=
  (readLog locate files "proxy" days).filterMap fun message =>
    (decode message).map fun text => ⟨text, "proxy"⟩

/-- The table can be had from the files of the proxy's log alone: from its lines in
the order of the days, those of other functions in between left aside. -/
theorem table_from_log_files (hempty : s.limiter.ipMap = ∅) (hrun : IsRun (step lim) s tr)
    {calls : List LogCall}
    (hlogged : (calls.map (·.line)).filter (·.kind.isSome) = journal lim what tr)
    (hkept : ∀ call ∈ calls, call.kept = true) {File : Type} [DecidableEq File]
    {locate : String → File} {days : List Tm} (h : Legible locate calls days) (ip : Ip) :
    replay (fun _ => none) (readLines locate (written locate calls) days) ip =
      ((final s tr).entry ip).map Entry.count := by
  let proxy := fun line : LogLine => decide (line.logBaseName = "proxy")
  have hread : readLines locate (written locate calls) days =
      (calls.map (·.line)).filter proxy := by
    rw [readLines, readLog_written h (by decide), List.filterMap_map, List.filter_map]
    have hfilter : (calls.filter fun call => call.kept ∧ call.line.logBaseName = "proxy") =
        calls.filter (proxy ∘ fun call => call.line) :=
      List.filter_congr fun call hcall => by simp [proxy, hkept call hcall]
    rw [hfilter, ← List.filterMap_eq_map]
    refine List.filterMap_congr fun call hcall => ?_
    have hbase : call.line.logBaseName = "proxy" := by
      simpa [proxy] using (List.mem_filter.mp hcall).2
    simp [← hbase]
  have hproxy : ((calls.map (·.line)).filter proxy).filter (·.kind.isSome) =
      (journal lim what tr).filter proxy := by
    rw [← hlogged, List.filter_filter, List.filter_filter]
    exact List.filter_congr fun line _ => Bool.and_comm _ _
  have hall := replay_run what hrun
  rw [hempty] at hall
  rw [hread, ← replay_filter (p := fun line => line.kind.isSome) fun line _ h =>
      replayLine_of_unread h, hproxy, replay_filter fun line hline h =>
      replayLine_of_error (labelled_journal what hrun line hline) (by simpa [proxy] using h)]
  exact congrFun hall ip

end Reading

/-- The lines of a run behind one that `startProxy` writes to the same log. -/
def refusalLog : List LogCall :=
  (⟨"Начало прослушивания порта 27015", "proxy"⟩ ::
    journal ⟨[], 1, 60⟩ (fun _ => "") refusedPacket).map
      fun line => ⟨line, evening, midnight, true, 200⟩

theorem table_from_log_files_refusal :
    refusalLog.length = 5 ∧
    replay (fun _ => none) (readLines id (written id refusalLog) [evening]) "10.0.0.1" =
      ((final (.start 0) refusedPacket).entry "10.0.0.1").map Entry.count :=
  ⟨rfl, table_from_log_files (fun _ => "") rfl (isRun_trace _ _) rfl (by decide +kernel)
    ⟨fun _ _ _ _ _ _ h => h, by decide +kernel, by decide +kernel, by decide +kernel,
      by decide +kernel, by decide +kernel, by decide +kernel⟩ "10.0.0.1"⟩

end Qwin
