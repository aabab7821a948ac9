import LogOrder.Proofs.CommandLine.Accepted
import LogOrder.Proofs.Log.Counted
import LogOrder.Proofs.Program.InWorld

/-!
# How a run to the standard output ends

A run can end in four ways: no settings, no log, a log with a line that cannot be read, and a log
that is reordered. Each of them has its status and writes its part to the two streams.

* `World.log?` is the log of a name, and `World.Legible` says that all of it can be read;
* `Ends` lists the four ways, and `ends_runIn` says that every run goes one of them;
* **`standard_output_status`**: the status of a run, and what each status says of the streams.
-/

namespace LogOrder

namespace World

/-- The log of that name, if it can be opened and read. A dash stands for the standard input. -/
def log? (w : World) (name : String) : Except IoFault Bytes :=
  if name = "-" then .ok w.input
  else do
    let (path, _) ← w.tree.open? w.working name
    match w.tree.find? path with
    | some (.file log) => .ok log
    | some .directory => .error .isDirectory
    | none => .error .notFound

/-- The log can be opened and read, and so can each of its lines. -/
def Legible (w : World) (name : String) : Prop :=
  ∃ log, w.log? name = .ok log ∧ ∀ line ∈ Line.cut log, Log.Sound line

end World

namespace Program

open Log

variable {w : World} {s : Settings} {a : CommandLine.Arguments} {args : List String}

/-! ## Opening the log -/

/-- How opening a log and then reading it can end. -/
inductive Opened (w : World) (s : Settings) : Except IoFault Bytes → Prop
  | closed {why : IoFault} (hplace : w.place? s = .error why) : Opened w s (.error why)
  | unreadable {place : Option Path} {why : IoFault} (hplace : w.place? s = .ok place)
      (hlog : w.logAt place = { pieces := [], failure := some why }) : Opened w s (.error why)
  | read {place : Option Path} {log : Bytes} (hplace : w.place? s = .ok place)
      (hlog : w.logAt place = .ofBytes log) : Opened w s (.ok log)

/-- Any name but a dash has to lead to something. -/
theorem place?_of_ne_dash (hne : s.input ≠ "") (hdash : s.input ≠ "-") :
    w.place? s = (w.tree.open? w.working s.input).map fun found => some found.1 :=
  if_neg fun h => hdash ((readsStandardInput_iff hne).mp h)

theorem opened_log? (hne : s.input ≠ "") : Opened w s (w.log? s.input) := by
  unfold World.log?
  by_cases hdash : s.input = "-"
  · have hplace : w.place? s = .ok none := if_pos ((readsStandardInput_iff hne).mpr hdash)
    rw [if_pos hdash]
    exact .read hplace rfl
  · have hplace := place?_of_ne_dash (w := w) hne hdash
    rw [if_neg hdash]
    cases hopen : w.tree.open? w.working s.input with
    | error why =>
      rw [hopen] at hplace
      exact .closed hplace
    | ok found =>
      obtain ⟨path, node⟩ := found
      rw [hopen] at hplace
      have hat : w.logAt (some path) = w.sourceAt path := rfl
      unfold World.sourceAt at hat
      show Opened w s (match w.tree.find? path with
        | some (.file log) => .ok log
        | some .directory => .error .isDirectory
        | none => .error .notFound)
      cases hfind : w.tree.find? path with
      | none =>
        rw [hfind] at hat
        exact .unreadable hplace hat
      | some node =>
        rw [hfind] at hat
        cases node with
        | file log => exact .read hplace hat
        | directory => exact .unreadable hplace hat

/-! ## Reordering to the standard output -/

theorem process_of_unread {why : IoFault} (hne : s.input ≠ "") (houtput : s.output = none)
    (h : w.log? s.input = .error why) :
    (process s : StateM World _).run w = (.error (.input s.input why), w) := by
  have hopened := h ▸ opened_log? hne
  cases hopened with
  | closed hplace => exact run_process_of_error hplace
  | unreadable hplace hlog =>
    have hnot : s.readsStandardInput = false := by
      rw [← Bool.not_eq_true, readsStandardInput_iff hne]
      intro hdash
      rw [World.log?, if_pos hdash] at h
      cases h
    have hname : (names s).input = s.input := by
      rw [names, hnot]
      rfl
    have hstops : Stops (names s) { pieces := [], failure := some why } [] (.input s.input why) :=
      .source (fun _ hl => absurd hl List.not_mem_nil) rfl rfl (by rw [hname])
    obtain ⟨hanswer, hleft⟩ := reorder_eq_of_stops hstops s.order Sink.boundless_empty
    rw [run_process_of_standard hplace houtput, hlog, hanswer, hleft]
    show (_, w.print []) = _
    rw [w.print_nil]

theorem process_of_sound {log : Bytes} (hne : s.input ≠ "") (houtput : s.output = none)
    (h : w.log? s.input = .ok log) (hsound : ∀ line ∈ Line.cut log, Sound line) :
    ∃ tally out, Counts log tally ∧ Writes s.order log out ∧
      (process s : StateM World _).run w = (.ok tally, w.print out) := by
  have hopened := h ▸ opened_log? hne
  cases hopened with
  | read hplace hlog =>
    obtain ⟨sink, hrun, hwritten⟩ :=
      exists_reorder_eq_ok (names s) s.order hsound (Source.holds_ofBytes log) Sink.boundless_empty
    refine ⟨_, _, counts_feed fun line hline => (hsound line hline).dated,
      writes_of_sound s.order hsound, ?_⟩
    rw [run_process_of_standard hplace houtput, hlog, hrun]
    show (_, w.print sink.written) = _
    rw [hwritten]
    rfl

theorem process_of_not_sound {log : Bytes} {before after : List Bytes} {line : Bytes}
    (hne : s.input ≠ "") (houtput : s.output = none) (h : w.log? s.input = .ok log)
    (hcut : Line.cut log = before ++ line :: after) (hsound : ∀ l ∈ before, Sound l)
    (hline : ¬Sound line) :
    ∃ fault, fault.exitCode = 2 ∧ (process s : StateM World _).run w = (.error fault,
      w.print (before.takeWhile fun line => (Stamp.opening? line).isNone).flatten) := by
  have hopened := h ▸ opened_log? hne
  cases hopened with
  | read hplace hlog =>
    obtain ⟨fault, hfault⟩ := exists_lineFault (names s) before.length hline
    have hlines : (Source.ofBytes log).lines = before ++ line :: after := by
      rw [← hcut, ← Source.lines_delivery_eq, (Source.holds_ofBytes log).lines_delivery]
    obtain ⟨hanswer, hleft⟩ :=
      reorder_eq_of_stops (.line hsound hlines hfault) s.order Sink.boundless_empty
    refine ⟨fault, ?_, ?_⟩
    · cases hfault <;> rfl
    · rw [run_process_of_standard hplace houtput, hlog, hanswer, hleft]
      rfl

/-! ## What is said on the standard error stream -/

theorem exists_toString_eq (n : Nat) :
    ∃ c rest, c.isDigit = true ∧ (toString n).toList = c :: rest := by
  have hrepr : (toString n).toList = Nat.toDigits 10 n := by
    show (Nat.repr n).toList = _
    rw [Nat.repr, String.toList_ofList]
  cases hdigits : Nat.toDigits 10 n with
  | nil => exact absurd hdigits Nat.toDigits_ne_nil
  | cons c rest =>
    have hmem : c ∈ Nat.toDigits 10 n := by
      rw [hdigits]
      exact List.mem_cons_self
    exact ⟨c, rest, Nat.isDigit_of_mem_toDigits (by decide) (by decide) hmem, hrepr.trans hdigits⟩

/-- Everything that the program says starts with its name. A summary goes on with a number, -/
theorem exists_summary_eq (tally : Tally) (order : Policy) :
    ∃ c rest, c.isDigit = true ∧
      (summary tally order).toList = "logsort: ".toList ++ c :: rest := by
  obtain ⟨c, rest, hc, hnumber⟩ := exists_toString_eq tally.lines
  have hsummary : ∃ later,
      summary tally order = "logsort: " ++ (toString tally.lines ++ later) := by
    refine ⟨" lines, " ++ (toString tally.entries ++ (" records, " ++ (toString tally.threads ++
      (" threads, " ++ (toString tally.preambleLines ++ (" preamble lines, order " ++
        (order.name ++ "\n"))))))), ?_⟩
    show "logsort: " ++ toString tally.lines ++ " lines, " ++ toString tally.entries ++
      " records, " ++ toString tally.threads ++ " threads, " ++
      (toString tally.preambleLines ++ " preamble lines, order " ++ order.name ++ "\n") = _
    simp only [String.append_assoc]
  obtain ⟨later, hsummary⟩ := hsummary
  refine ⟨c, rest ++ later.toList, hc, ?_⟩
  rw [hsummary, String.toList_append, String.toList_append, hnumber, List.cons_append]

theorem exists_message_eq (fault : Fault) : ∃ word rest, fault.message = word ++ rest ∧
    word.toList.head?.map Char.isDigit = some false := by
  cases fault with
  | config text => exact ⟨"configuration error: ", text, rfl, by decide⟩
  | toml fault => exact ⟨"config file error: ", fault.report, rfl, by decide⟩
  | input path why =>
    refine ⟨"cannot read ", path ++ (": " ++ why.message), ?_, by decide⟩
    show "cannot read " ++ path ++ ": " ++ why.message = _
    simp only [String.append_assoc]
  | output path why =>
    refine ⟨"cannot write ", path ++ (": " ++ why.message), ?_, by decide⟩
    show "cannot write " ++ path ++ ": " ++ why.message = _
    simp only [String.append_assoc]
  | stamp line text reason =>
    refine ⟨"invalid timestamp on line ", toString line ++ (" (" ++ (text ++ ("): " ++ reason))),
      ?_, by decide⟩
    show "invalid timestamp on line " ++ toString line ++ " (" ++ text ++ "): " ++ reason = _
    simp only [String.append_assoc]

/-- and a complaint with a word. -/
theorem exists_complaint_eq (fault : Fault) :
    ∃ c rest, c.isDigit = false ∧ (complaint fault).toList = "logsort: ".toList ++ c :: rest := by
  obtain ⟨word, rest, hmessage, hhead⟩ := exists_message_eq fault
  cases hword : word.toList with
  | nil =>
    rw [hword] at hhead
    cases hhead
  | cons c cs =>
    rw [hword] at hhead
    refine ⟨c, cs ++ (rest.toList ++ "\n".toList), Option.some.inj hhead, ?_⟩
    have hlist : (complaint fault).toList =
        "logsort: ".toList ++ (word.toList ++ rest.toList ++ "\n".toList) := by
      show ("logsort: " ++ fault.message ++ "\n").toList = _
      rw [hmessage, String.toList_append, String.toList_append, String.toList_append,
        List.append_assoc]
    rw [hlist, hword, List.append_assoc, List.cons_append]

theorem complaint_ne_summary (fault : Fault) (tally : Tally) (order : Policy) :
    complaint fault ≠ summary tally order := by
  intro h
  obtain ⟨c, rest, hc, hsummary⟩ := exists_summary_eq tally order
  obtain ⟨d, rest', hd, hcomplaint⟩ := exists_complaint_eq fault
  rw [h, hsummary] at hcomplaint
  obtain ⟨rfl, -⟩ := List.cons.inj (List.append_cancel_left hcomplaint)
  rw [hc] at hd
  cases hd

/-! ## How runs end -/

/-- The ways in which a run can end, with the world that is left. -/
inductive Ends (w : World) (a : CommandLine.Arguments) (name : String) : Ending × World → Prop
  | misconfigured {fault : Fault} (hsettings : w.settings? a = .error fault) :
      Ends w a name (.stopped fault, w.say (complaint fault))
  | unread {s : Settings} {why : IoFault} (hsettings : w.settings? a = .ok s)
      (hlog : w.log? name = .error why) :
      Ends w a name (.stopped (.input name why), w.say (complaint (.input name why)))
  /-- Some line is the first that cannot be read; what is written is the preamble before it. -/
  | notSound {s : Settings} {log : Bytes} {before after : List Bytes} {line : Bytes} {fault : Fault}
      (hsettings : w.settings? a = .ok s) (hlog : w.log? name = .ok log)
      (hcut : Line.cut log = before ++ line :: after) (hsound : ∀ l ∈ before, Sound l)
      (hline : ¬Sound line) (hfault : fault.exitCode = 2) :
      Ends w a name (.stopped fault,
        (w.print (before.takeWhile fun line => (Stamp.opening? line).isNone).flatten).say
          (complaint fault))
  | finished {s : Settings} {log out : Bytes} {tally : Tally} (hsettings : w.settings? a = .ok s)
      (hlog : w.log? name = .ok log) (hsound : ∀ line ∈ Line.cut log, Sound line)
      (hcounts : Counts log tally) (hout : Writes s.order log out) :
      Ends w a name (.finished tally,
        (w.print out).say (if a.verbose then summary tally s.order else ""))

theorem ends_runIn (hread : CommandLine.read args = .ok a) (hcompletions : a.completions = none)
    (houtput : a.output = none) : ∃ name, a.logfile = some name ∧ Ends w a name (runIn args w) := by
  obtain ⟨name, hname, hne⟩ := CommandLine.exists_logfile hread hcompletions
  refine ⟨name, hname, ?_⟩
  cases hsettings : w.settings? a with
  | error fault =>
    rw [runIn_of_misconfigured hread hcompletions hsettings]
    exact .misconfigured hsettings
  | ok s =>
    obtain ⟨hinput, hsame, hverbose⟩ := of_settings? hsettings hname
    have hstandard := hsame.trans houtput
    subst hinput
    rw [runIn_of_settings hread hcompletions hsettings]
    cases hlog : w.log? s.input with
    | error why =>
      rw [process_of_unread hne hstandard hlog]
      exact .unread hsettings hlog
    | ok log =>
      by_cases hsound : ∀ line ∈ Line.cut log, Sound line
      · obtain ⟨tally, out, hcounts, hout, hprocess⟩ :=
          process_of_sound hne hstandard hlog hsound
        rw [hprocess, concluded, hverbose]
        exact .finished hsettings hlog hsound hcounts hout
      · push Not at hsound
        obtain ⟨before, line, after, hcut, hbefore, hline⟩ := exists_first_not_sound hsound
        obtain ⟨fault, hfault, hprocess⟩ :=
          process_of_not_sound hne hstandard hlog hcut hbefore hline
        rw [hprocess, concluded]
        exact .notSound hsettings hlog hcut hbefore hline hfault

/-! ## What each status says -/

section Ends

variable {name : String} {r : Ending × World}

theorem legible_iff {log : Bytes} (h : w.log? name = .ok log) :
    w.Legible name ↔ ∀ line ∈ Line.cut log, Sound line := by
  constructor
  · rintro ⟨other, hother, hsound⟩
    obtain rfl : log = other := Except.ok.inj (h.symm.trans hother)
    exact hsound
  · intro hsound
    exact ⟨log, h, hsound⟩

theorem not_legible {why : IoFault} (h : w.log? name = .error why) : ¬w.Legible name := by
  rintro ⟨log, hlog, -⟩
  cases h.symm.trans hlog

theorem not_legible_of_cut_eq {log : Bytes} {before after : List Bytes} {line : Bytes}
    (h : w.log? name = .ok log) (hcut : Line.cut log = before ++ line :: after)
    (hline : ¬Sound line) : ¬w.Legible name := by
  rw [legible_iff h, hcut]
  intro hsound
  exact hline (hsound line (List.mem_append_right _ List.mem_cons_self))

theorem Ends.one_iff (h : Ends w a name r) :
    r.1.exitCode = 1 ↔ ∃ fault, w.settings? a = .error fault := by
  cases h with
  | misconfigured hsettings =>
    exact ⟨fun _ => ⟨_, hsettings⟩, fun _ => exitCode_of_settings? hsettings⟩
  | unread hsettings => simp [hsettings, Ending.exitCode, Fault.exitCode]
  | notSound hsettings _ _ _ _ hfault => simp [hsettings, Ending.exitCode, hfault]
  | finished hsettings => simp [hsettings, Ending.exitCode]

theorem Ends.zero_iff (h : Ends w a name r) :
    r.1.exitCode = 0 ↔ (∃ s, w.settings? a = .ok s) ∧ w.Legible name := by
  cases h with
  | misconfigured hsettings => simp [hsettings, Ending.exitCode, exitCode_of_settings? hsettings]
  | unread _ hlog => simp [not_legible hlog, Ending.exitCode, Fault.exitCode]
  | notSound _ hlog hcut _ hline hfault =>
    simp [not_legible_of_cut_eq hlog hcut hline, Ending.exitCode, hfault]
  | finished hsettings hlog hsound =>
    simp [hsettings, (legible_iff hlog).mpr hsound, Ending.exitCode]

theorem Ends.two_iff (h : Ends w a name r) :
    r.1.exitCode = 2 ↔ (∃ s, w.settings? a = .ok s) ∧ ¬w.Legible name := by
  cases h with
  | misconfigured hsettings => simp [hsettings, Ending.exitCode, exitCode_of_settings? hsettings]
  | unread hsettings hlog =>
    simp [hsettings, not_legible hlog, Ending.exitCode, Fault.exitCode]
  | notSound hsettings hlog hcut _ hline hfault =>
    simp [hsettings, not_legible_of_cut_eq hlog hcut hline, Ending.exitCode, hfault]
  | finished _ hlog hsound => simp [(legible_iff hlog).mpr hsound, Ending.exitCode]

/-- A run with status 0 has written the log in its new order. -/
theorem Ends.of_zero (h : Ends w a name r) (hzero : r.1.exitCode = 0) :
    ∃ s log out tally, w.settings? a = .ok s ∧ w.log? name = .ok log ∧ Counts log tally ∧
      Writes s.order log out ∧ r = (.finished tally,
        (w.print out).say (if a.verbose then summary tally s.order else "")) := by
  cases h with
  | misconfigured hsettings =>
    have hone := exitCode_of_settings? hsettings
    cases hzero.symm.trans hone
  | unread => cases hzero
  | notSound _ _ _ _ _ hfault => cases hzero.symm.trans hfault
  | finished hsettings hlog _ hcounts hout =>
    exact ⟨_, _, _, _, hsettings, hlog, hcounts, hout, rfl⟩

/-- The preamble of lines that are read one by one is no more than that when it stands alone. -/
theorem opening?_of_mem_cut_preamble {log : Bytes} {before after : List Bytes}
    (hcut : Line.cut log = before ++ after) : ∀ line ∈ Line.cut
      (before.takeWhile fun line => (Stamp.opening? line).isNone).flatten,
      Stamp.opening? line = none := by
  have hpreamble : Line.cut log =
      [] ++ (before.takeWhile fun line => (Stamp.opening? line).isNone) ++
        ((before.dropWhile fun line => (Stamp.opening? line).isNone) ++ after) := by
    rw [hcut, List.nil_append, ← List.append_assoc, List.takeWhile_append_dropWhile]
  rw [Line.cut_flatten_of_cut_eq hpreamble]
  intro line hline
  exact Option.isNone_iff_eq_none.mp (List.all_eq_true.mp List.all_takeWhile line hline)

/-- Any other run complains, and has written no line with a stamp. -/
theorem Ends.of_ne_zero (h : Ends w a name r) (hne : r.1.exitCode ≠ 0) :
    ∃ fault out, (∀ line ∈ Line.cut out, Stamp.opening? line = none) ∧
      r = (.stopped fault, (w.print out).say (complaint fault)) := by
  have hnone : ∀ line ∈ Line.cut [], Stamp.opening? line = none :=
    fun _ hline => absurd hline List.not_mem_nil
  cases h with
  | misconfigured =>
    rename_i fault _
    exact ⟨fault, [], hnone, by rw [w.print_nil]⟩
  | unread =>
    rename_i why _ _
    exact ⟨.input name why, [], hnone, by rw [w.print_nil]⟩
  | notSound _ _ hcut => exact ⟨_, _, opening?_of_mem_cut_preamble hcut, rfl⟩
  | finished => exact absurd rfl hne

/-- What is written before a line that cannot be read is the preamble so far. -/
theorem Ends.of_two (h : Ends w a name r) (htwo : r.1.exitCode = 2) {log : Bytes}
    (hlog : w.log? name = .ok log) : ∃ before line after, Line.cut log = before ++ line :: after ∧
      (∀ l ∈ before, Sound l) ∧ ¬Sound line ∧ r.2.output = w.output ++
        (before.takeWhile fun line => (Stamp.opening? line).isNone).flatten := by
  cases h with
  | misconfigured hsettings => cases htwo.symm.trans (exitCode_of_settings? hsettings)
  | unread _ hother => cases hlog.symm.trans hother
  | notSound _ hother hcut hsound hline _ =>
    obtain rfl := Except.ok.inj (hlog.symm.trans hother)
    exact ⟨_, _, _, hcut, hsound, hline, rfl⟩
  | finished => cases htwo

theorem Ends.output_of_unread (h : Ends w a name r) {why : IoFault}
    (hlog : w.log? name = .error why) : r.2.output = w.output := by
  cases h with
  | misconfigured => rfl
  | unread => rfl
  | notSound _ hother => cases hlog.symm.trans hother
  | finished _ hother => cases hlog.symm.trans hother

theorem Ends.summary_iff (h : Ends w a name r) :
    (∃ tally order, r.2.errors = w.errors ++ summary tally order) ↔
      a.verbose = true ∧ r.1.exitCode = 0 := by
  by_cases hzero : r.1.exitCode = 0
  · obtain ⟨s, log, out, tally, -, -, -, -, rfl⟩ := h.of_zero hzero
    constructor
    · rintro ⟨other, order, hsame⟩
      refine ⟨?_, hzero⟩
      by_contra hverbose
      have hempty : "" = summary other order := by
        rw [if_neg hverbose] at hsame
        exact (String.append_right_inj _).mp hsame
      obtain ⟨c, rest, -, hsummary⟩ := exists_summary_eq other order
      rw [← hempty] at hsummary
      cases hsummary
    · rintro ⟨hverbose, -⟩
      rw [if_pos hverbose]
      exact ⟨tally, s.order, rfl⟩
  · obtain ⟨fault, out, -, rfl⟩ := h.of_ne_zero hzero
    constructor
    · rintro ⟨tally, order, hsame⟩
      have htext := (String.append_right_inj _).mp hsame
      exact absurd htext (complaint_ne_summary fault tally order)
    · rintro ⟨-, hcode⟩
      exact absurd hcode hzero

end Ends

/-- The status of a run. -/
def exitCode (args : List String) (w : World) : Nat := (runIn args w).1.exitCode

/-- What the status of a run to the standard output says of it. It is 1 when there are no settings,
0 when all of the log can be read, and 2 in every other case. -/
structure Status (args : List String) (w : World) (a : CommandLine.Arguments) (name : String) :
    Prop where
  one_iff : exitCode args w = 1 ↔ ∃ fault, w.settings? a = .error fault
  zero_iff : exitCode args w = 0 ↔ (∃ s, w.settings? a = .ok s) ∧ w.Legible name
  two_iff : exitCode args w = 2 ↔ (∃ s, w.settings? a = .ok s) ∧ ¬w.Legible name
  /-- Without settings, a run only complains, and does so whatever the log is. -/
  of_one : exitCode args w = 1 → ∃ fault, ∀ v : World, v.settings? a = w.settings? a →
    runIn args v = (.stopped fault, v.say (complaint fault))
  of_zero : exitCode args w = 0 → ∃ s log out, w.settings? a = .ok s ∧ w.log? name = .ok log ∧
    Writes s.order log out ∧ (runIn args w).2.output = w.output ++ out
  /-- Only a run with status 0 writes a stamped line. -/
  of_ne_zero : exitCode args w ≠ 0 → ∃ out, (runIn args w).2.output = w.output ++ out ∧
    ∀ line ∈ Line.cut out, Stamp.opening? line = none
  /-- The preamble up to the fault is written, -/
  of_two : exitCode args w = 2 → ∀ log, w.log? name = .ok log → ∃ before line after,
    Line.cut log = before ++ line :: after ∧ (∀ l ∈ before, Sound l) ∧ ¬Sound line ∧
    (runIn args w).2.output = w.output ++
      (before.takeWhile fun line => (Stamp.opening? line).isNone).flatten
  /-- which is nothing if the log cannot be opened or not be read. -/
  of_unread : exitCode args w = 2 → ∀ why, w.log? name = .error why →
    (runIn args w).2.output = w.output
  summary_iff : (∃ tally order, (runIn args w).2.errors = w.errors ++ summary tally order) ↔
    a.verbose = true ∧ exitCode args w = 0
  of_summary : a.verbose = true → exitCode args w = 0 → ∃ s log tally, w.settings? a = .ok s ∧
    w.log? name = .ok log ∧ Counts log tally ∧
    (runIn args w).2.errors = w.errors ++ summary tally s.order

/-- **The status of a run to the standard output.** It is 1 exactly when there are no settings, and
then the run is the same whatever the log is. Otherwise it is 0 exactly when the log can be opened
and read and all its lines are text without a stamp that is no date, and 2 if not. Only with status
0 is any entry written; with status 2 the preamble up to the fault is all that is. A summary is
given exactly when one is asked for and the status is 0. -/
theorem standard_output_status (hread : CommandLine.read args = .ok a)
    (hcompletions : a.completions = none) (houtput : a.output = none) :
    ∃ name, a.logfile = some name ∧ Status args w a name := by
  obtain ⟨name, hname, hends⟩ := ends_runIn (w := w) hread hcompletions houtput
  refine ⟨name, hname, ?_⟩
  constructor
  · exact hends.one_iff
  · exact hends.zero_iff
  · exact hends.two_iff
  · intro hone
    obtain ⟨fault, hsettings⟩ := hends.one_iff.mp hone
    refine ⟨fault, ?_⟩
    intro v hsame
    exact runIn_of_misconfigured hread hcompletions (hsame.trans hsettings)
  · intro hzero
    obtain ⟨s, log, out, tally, hsettings, hlog, -, hout, hrun⟩ := hends.of_zero hzero
    refine ⟨s, log, out, hsettings, hlog, hout, ?_⟩
    rw [hrun]
    rfl
  · intro hne
    obtain ⟨fault, out, hnone, hrun⟩ := hends.of_ne_zero hne
    refine ⟨out, ?_, hnone⟩
    rw [hrun]
    rfl
  · intro htwo log hlog
    exact hends.of_two htwo hlog
  · intro _ why hlog
    exact hends.output_of_unread hlog
  · exact hends.summary_iff
  · intro hverbose hzero
    obtain ⟨s, log, out, tally, hsettings, hlog, hcounts, -, hrun⟩ := hends.of_zero hzero
    refine ⟨s, log, tally, hsettings, hlog, hcounts, ?_⟩
    rw [hrun, if_pos hverbose]
    rfl

/-- A log that can be read, one with a stamp that is no date, and one that is not there. -/
theorem standard_output_status_verbose : ∃ (good bad : World) (a : CommandLine.Arguments),
    CommandLine.read ["-v", "a.log"] = .ok a ∧ a.completions = none ∧ a.output = none ∧
    exitCode ["-v", "a.log"] good = 0 ∧
    (∃ tally, (runIn ["-v", "a.log"] good).2.errors = summary tally .chrono) ∧
    exitCode ["-v", "a.log"] bad = 2 ∧
    (∃ out, (runIn ["-v", "a.log"] bad).2.output = out ∧
      ∀ line ∈ Line.cut out, Stamp.opening? line = none) ∧
    exitCode ["-v", "a.log"] {} = 2 ∧ (runIn ["-v", "a.log"] {}).2.output = [] := by
  obtain ⟨good, log, hsettings, hlog, herrors, hv, hd⟩ : ∃ (good : World) (log : Bytes),
      good.settings? { logfile := some "a.log", verbose := true } =
        .ok { input := "a.log", verbose := true } ∧
      good.log? "a.log" = .ok log ∧ good.errors = "" ∧
      Utf8.valid log = true ∧ ∀ line ∈ Line.cut log, Stamp.Dated line :=
    ⟨{ tree := { nodes := [(["a.log"], .file (Bytes.ofString
      "on\n[2024-01-01 00:00:00:005] b\n[2024-01-01 00:00:00:003] a"))] } }, _, rfl, rfl, rfl,
      by decide, by decide⟩
  obtain ⟨bad, log', line, hsettings', hlog', houtput', hline, hbad⟩ :
      ∃ (bad : World) (log : Bytes) (line : Bytes),
        bad.settings? { logfile := some "a.log", verbose := true } =
          .ok { input := "a.log", verbose := true } ∧
        bad.log? "a.log" = .ok log ∧ bad.output = [] ∧ line ∈ Line.cut log ∧ ¬Stamp.Dated line :=
    ⟨{ tree := { nodes := [(["a.log"], .file (Bytes.ofString
      "on\n[2024-01-01 00:00:00:005] b\n[2024-02-30 00:00:00:003] a"))] } }, _,
      Bytes.ofString "[2024-02-30 00:00:00:003] a", rfl, rfl, rfl, by decide, by decide⟩
  have hread : CommandLine.read ["-v", "a.log"] =
      .ok { logfile := some "a.log", verbose := true } := rfl
  obtain ⟨_, ⟨⟩, hgood⟩ := standard_output_status (w := good) hread rfl rfl
  obtain ⟨_, ⟨⟩, hfault⟩ := standard_output_status (w := bad) hread rfl rfl
  obtain ⟨_, ⟨⟩, hmissing⟩ := standard_output_status (w := {}) hread rfl rfl
  have hzero := hgood.zero_iff.mpr ⟨⟨_, hsettings⟩, log, hlog, sound_of_valid hv hd⟩
  have hnot : ¬bad.Legible "a.log" := by
    rw [legible_iff hlog']
    exact fun hsound => hbad (hsound line hline).dated
  have htwo := hfault.two_iff.mpr ⟨⟨_, hsettings'⟩, hnot⟩
  have hnone : World.log? {} "a.log" = .error .notFound := rfl
  have htwo' := hmissing.two_iff.mpr ⟨⟨_, rfl⟩, not_legible hnone⟩
  have hnothing := hmissing.of_unread htwo' _ hnone
  refine ⟨good, bad, _, hread, rfl, rfl, hzero, ?_, htwo, ?_, htwo', hnothing⟩
  · obtain ⟨s, _, tally, hsame, -, -, hsummary⟩ := hgood.of_summary rfl hzero
    obtain rfl := Except.ok.inj (hsettings.symm.trans hsame)
    refine ⟨tally, ?_⟩
    rw [hsummary, herrors, String.empty_append]
    rfl
  · obtain ⟨out, hout, hnone⟩ := hfault.of_ne_zero (by rw [htwo]; decide)
    rw [houtput', List.nil_append] at hout
    exact ⟨out, hout, hnone⟩

end Program

end LogOrder
