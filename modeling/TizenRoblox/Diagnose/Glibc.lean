/-
# What the diagnostic says of glibc

The libraries of the installation need glibc 2.34. `diagnose.sh` takes for the version what
is at the end of the first line of `ldd --version`: two numbers with a dot between them. Of
a version of three numbers these are the second and the third, so that it may be
called recent when it is not, and the other way round. The check is right exactly if
the numbers that it compares are recent where the version is (`glibcRight_iff`).
-/

import Mathlib.Data.Prod.Lex
import TizenRoblox.Shell.Numbers
import TizenRoblox.Shell.Regex

namespace TizenRoblox.Diagnose

open TizenRoblox.Foundation TizenRoblox.Shell TizenRoblox.Shell.Regex

/-! ## Reports -/

/-- What the diagnostic has counted, and what it has given to `echo`. -/
structure Report where
  passed : ℕ
  warned : ℕ
  failed : ℕ
  said : List Bytes

def green : Bytes := bytes "\\033[0;32m"

def yellow : Bytes := bytes "\\033[1;33m"

def red : Bytes := bytes "\\033[0;31m"

/-- `NC` -/
def noColour : Bytes := bytes "\\033[0m"

namespace Report

variable (text : Bytes) (report : Report)

def say : Report := { report with said := report.said ++ [text] }

def ok : Report :=
  { report.say (green ++ bytes "[OK]" ++ noColour ++ bytes "   " ++ text) with
    passed := report.passed + 1 }

def warn : Report :=
  { report.say (yellow ++ bytes "[WARN]" ++ noColour ++ bytes " " ++ text) with
    warned := report.warned + 1 }

def fail : Report :=
  { report.say (red ++ bytes "[FAIL]" ++ noColour ++ bytes " " ++ text) with
    failed := report.failed + 1 }

end Report

/-! ## The check -/

def period : UInt8 := 46

/-- `[0-9]+\.[0-9]+$` -/
def versionPattern : List Part := [.many isDigit, .one (· = period), .many isDigit, .lineEnd]

/-- What `grep` says of a match in a line that it does not take for text, in its versions. -/
def notices : List Bytes := [
  bytes "Binary file (standard input) matches",
  bytes "grep: (standard input): binary file matches"]

structure Grep where
  /-- The line is text in the locale of the script. -/
  isText : Bytes → Bool
  notice : Bytes
  documented : notice ∈ notices

/-- `grep -o`, given one line. -/
def Grep.only (grep : Grep) (pattern : List Part) (line : Bytes) : Bytes :=
  match findAll pattern 0 line with
  | [] => []
  | found =>
    if grep.isText line then found.flatMap (· ++ [newline]) else grep.notice ++ [newline]

/-- `GLIBC_VER` -/
def glibcVer (grep : Grep) (lddOutput : Bytes) : Bytes :=
  commandSubstitution (grep.only versionPattern (firstLine lddOutput))

/-- `$(echo "${GLIBC_VER}" | cut -d. -f…)` -/
def versionField (field : ℕ) (version : Bytes) : Bytes :=
  commandSubstitution (cut period field (echoOutput version))

/-- The comparison of `GLIBC_MAJOR` and `GLIBC_MINOR`. -/
def newEnough (version : Bytes) : Bool :=
  let major := versionField 1 version
  let minor := versionField 2 version
  compareNumbers (· > ·) major (bytes "2") ||
    (compareNumbers (· = ·) major (bytes "2") && compareNumbers (· ≥ ·) minor (bytes "34"))

/-- The part of the script that checks the version of glibc. -/
def glibcCheck (grep : Grep) (lddOutput : Bytes) (report : Report) : Report :=
  let report := (report.say []).say (bytes "--- glibc Version ---")
  let version := glibcVer grep lddOutput
  if version ≠ [] then
    if newEnough version then
      report.ok (bytes "glibc " ++ version ++ bytes " (>= 2.34 required by bundled libs)")
    else
      (report.fail (bytes "glibc " ++ version ++
        bytes " is older than 2.34 — bundled OpenSSL/curl/glib/etc. will fail to load")).say
        (bytes ("     Rebuild thirdparty libs with an older glibc baseline, " ++
          "or use a Tizen build with newer glibc"))
  else report.warn (bytes "Could not determine glibc version (ldd --version parse failed)")

/-! ## Versions -/

/-- A line that ends in a version of two or three numbers, the first of them whole. -/
structure VersionLine where
  front : Bytes
  major : Number
  minor : Number
  patch : Option Number
  whole : front.getLast?.any isDigit = false

namespace VersionLine

variable (line : VersionLine)

def text : Bytes :=
  line.front ++ line.major.digits ++ period :: line.minor.digits ++
    line.patch.elim [] fun patch => period :: patch.digits

/-- The version is at least 2.34. -/
def Recent : Prop := toLex (2, 34) ≤ toLex (line.major.value, line.minor.value)

/-- The last two numbers of the version. -/
def lastTwo : Number × Number :=
  match line.patch with
  | none => (line.major, line.minor)
  | some patch => (line.minor, patch)

end VersionLine

/-- Two numbers that the shell takes for a version of at least 2.34. -/
def TakenForRecent (numbers : Number × Number) : Prop :=
  toLex (2, 34) ≤ toLex (numbers.1.value, numbers.2.value) ∧
    numbers.1.value < 2 ^ 63 ∧ (numbers.1.value = 2 → numbers.2.value < 2 ^ 63)

section Search

variable (first second : Number)

/-- Two numbers with a dot between them. -/
def dotted : Bytes := first.digits ++ period :: second.digits

theorem matches_versionPattern {matched after : Bytes}
    (hmatches : Matches versionPattern matched after) :
    after = [] ∧ ∃ first second : Number, matched = dotted first second := by
  obtain ⟨digits, rest, rfl, ⟨hnonempty, hdigits⟩, _, rest', rfl, ⟨byte, hbyte, rfl⟩,
    others, rest'', rfl, ⟨hothersNonempty, hothers⟩, nothing, nothing', rfl, ⟨rfl, hafter⟩,
    rfl⟩ := hmatches
  obtain rfl : byte = period := of_decide_eq_true hbyte
  exact ⟨hafter, ⟨digits, hnonempty, List.all_eq_true.mpr hdigits⟩,
    ⟨others, hothersNonempty, List.all_eq_true.mpr hothers⟩, by simp [dotted]⟩

theorem matches_dotted : Matches versionPattern (dotted first second) [] :=
  ⟨first.digits, period :: second.digits, rfl, ⟨first.nonempty, fun _ => first.isDigit_of_mem⟩,
    [period], second.digits, rfl, ⟨period, by decide, rfl⟩,
    second.digits, [], (List.append_nil _).symm, ⟨second.nonempty, fun _ => second.isDigit_of_mem⟩,
    [], [], rfl, ⟨rfl, rfl⟩, rfl⟩

theorem matchAt_dotted :
    matchAt versionPattern (dotted first second) = some (dotted first second) := by
  have hfound := matchAt_ne_none (matches_dotted first second)
  rw [List.append_nil] at hfound
  obtain ⟨matched, hmatched⟩ := Option.ne_none_iff_exists'.mp hfound
  obtain ⟨after, hsplit, hmatches⟩ := matches_of_matchAt hmatched
  obtain ⟨rfl, _⟩ := matches_versionPattern hmatches
  rw [hmatched, hsplit, List.append_nil]

theorem isDigit_period : isDigit period = false := by decide

/-- Before a whole number there is no match that goes on to the end. -/
theorem matchAt_before_dotted {left : Bytes} (hnonempty : left ≠ [])
    (hwhole : left.getLast?.any isDigit = false) :
    matchAt versionPattern (left ++ dotted first second) = none := by
  by_contra hfound
  obtain ⟨matched, hmatched⟩ := Option.ne_none_iff_exists'.mp hfound
  obtain ⟨after, hsplit, hmatches⟩ := matches_of_matchAt hmatched
  obtain ⟨rfl, one, other, rfl⟩ := matches_versionPattern hmatches
  have hsame : one.digits ++ period :: other.digits =
      (left ++ first.digits) ++ period :: second.digits := by
    rw [List.append_nil] at hsplit
    rw [List.append_assoc]
    exact hsplit.symm
  obtain ⟨hone, -, -⟩ := (List.append_cons_inj_of_notMem (one.notMem_digits isDigit_period)
    (other.notMem_digits isDigit_period)).mp hsame
  have hlast : left.getLast hnonempty ∈ one.digits := by
    rw [hone]
    exact List.mem_append_left _ (List.getLast_mem hnonempty)
  have hdigit := one.isDigit_of_mem hlast
  rw [List.getLast?_eq_some_getLast hnonempty, Option.any_some, hdigit] at hwhole
  cases hwhole

/-- The search finds the last two numbers of the line. -/
theorem findAll_dotted {front : Bytes} (hwhole : front.getLast?.any isDigit = false) :
    findAll versionPattern 0 (front ++ dotted first second) = [dotted first second] := by
  have hfront := @findAll_of_none versionPattern front (dotted first second) (by
    intro skipped left hsplit hleft
    apply matchAt_before_dotted first second hleft
    rwa [hsplit, List.getLast?_append_of_ne_nil _ hleft] at hwhole)
  have hnonempty : dotted first second ≠ [] := by simp [dotted]
  have hfound := @findAll_of_some versionPattern (dotted first second) [] hnonempty
    (by rw [List.append_nil]; exact matchAt_dotted first second)
  rw [List.append_nil] at hfound
  rw [hfront, hfound]
  rfl

end Search

/-! ## What is compared -/

section Comparison

variable (first second : Number)

/-- Numbers and dots pass through the shell unchanged. -/
theorem mem_dotted {byte : UInt8} (hbyte : byte ∈ dotted first second) :
    isDigit byte = true ∨ byte = period := by
  rcases List.mem_append.mp hbyte with hfirst | hsecond
  · exact .inl (first.isDigit_of_mem hfirst)
  · rcases List.mem_cons.mp hsecond with rfl | hsecond
    · exact .inr rfl
    · exact .inl (second.isDigit_of_mem hsecond)

theorem notMem_dotted {byte : UInt8} (hdigit : isDigit byte = false) (hperiod : byte ≠ period) :
    byte ∉ dotted first second := by
  intro hmem
  rcases mem_dotted first second hmem with htrue | hsame
  · rw [hdigit] at htrue
    cases htrue
  · exact hperiod hsame

theorem echoOutput_dotted :
    echoOutput (dotted first second) = dotted first second ++ [newline] := by
  apply echoOutput_of_word
  have hhead : (dotted first second).head? ≠ some 45 := by
    intro hhead
    exact notMem_dotted first second (by decide) (by decide) (List.mem_of_mem_head? hhead)
  simp [isEchoOption, hhead]

/-- A field of digits only is what the substitution gives. -/
theorem versionField_eq {field : ℕ} {number : Number}
    (hfield : cutField period field (dotted first second) = number.digits) :
    versionField field (dotted first second) = number.digits := by
  have hnewline := notMem_dotted first second (by decide : isDigit newline = false) (by decide)
  rw [versionField, echoOutput_dotted, cut_line period field hnewline, hfield]
  exact commandSubstitution_echo (number.notMem_digits (by decide))
    (number.notMem_digits (by decide))

/-- The comparison is that of the two numbers, as far as the shell can read them. -/
theorem newEnough_dotted :
    newEnough (dotted first second) = true ↔ TakenForRecent (first, second) := by
  have hmajor : versionField 1 (dotted first second) = first.digits :=
    versionField_eq first second (cutField_one (first.notMem_digits isDigit_period))
  have hminor : versionField 2 (dotted first second) = second.digits :=
    versionField_eq first second (cutField_two (first.notMem_digits isDigit_period)
      (second.notMem_digits isDigit_period))
  have htwo : legalNumber (bytes "2") = some 2 := by decide
  have hthirtyFour : legalNumber (bytes "34") = some 34 := by decide
  simp only [newEnough, hmajor, hminor, compareNumbers, htwo, hthirtyFour, TakenForRecent,
    Prod.Lex.toLex_le_toLex, Bool.or_eq_true, Bool.and_eq_true]
  by_cases hfirst : first.value < 2 ^ 63
  · rw [first.legalNumber_of_lt hfirst]
    by_cases hsecond : second.value < 2 ^ 63
    · simp only [second.legalNumber_of_lt hsecond, decide_eq_true_eq]
      omega
    · simp only [second.legalNumber_of_not_lt hsecond, decide_eq_true_eq, Bool.false_eq_true,
        and_false, or_false]
      omega
  · simp only [first.legalNumber_of_not_lt hfirst, Bool.false_eq_true, false_and, or_false,
      false_iff]
    omega

/-- A notice is not a version. -/
theorem newEnough_notice : ∀ notice ∈ notices, newEnough notice = false := by decide

end Comparison

section Check

variable {grep : Grep} {lddOutput : Bytes} {line : VersionLine}

/-- Before the last two numbers of a version there is no digit. -/
theorem VersionLine.text_eq (line : VersionLine) :
    ∃ front, line.text = front ++ dotted line.lastTwo.1 line.lastTwo.2 ∧
      front.getLast?.any isDigit = false := by
  unfold VersionLine.text VersionLine.lastTwo
  cases hpatch : line.patch with
  | none => exact ⟨line.front, by simp [dotted], line.whole⟩
  | some patch =>
      refine ⟨line.front ++ line.major.digits ++ [period], by simp [dotted], ?_⟩
      rw [List.getLast?_concat]
      exact isDigit_period

/-- What is taken for the version of glibc: the last two numbers, of a line of text. -/
theorem glibcVer_eq (houtput : firstLine lddOutput = line.text) :
    glibcVer grep lddOutput =
      if grep.isText line.text then dotted line.lastTwo.1 line.lastTwo.2 else grep.notice := by
  obtain ⟨front, htext, hwhole⟩ := line.text_eq
  have hfound := findAll_dotted line.lastTwo.1 line.lastTwo.2 hwhole
  rw [← htext] at hfound
  rw [glibcVer, houtput, Grep.only, hfound]
  cases hisText : grep.isText line.text with
  | true =>
      simp only [if_true, List.flatMap_singleton]
      exact commandSubstitution_echo (notMem_dotted _ _ (by decide) (by decide))
        (notMem_dotted _ _ (by decide) (by decide))
  | false =>
      have hplain : ∀ notice ∈ notices, nul ∉ notice ∧ newline ∉ notice := by decide
      simp only [Bool.false_eq_true, if_false]
      exact commandSubstitution_echo (hplain _ grep.documented).1 (hplain _ grep.documented).2

theorem glibcVer_ne_nil (houtput : firstLine lddOutput = line.text) :
    glibcVer grep lddOutput ≠ [] := by
  rw [glibcVer_eq houtput]
  split
  · simp [dotted]
  · have hnonempty : ∀ notice ∈ notices, notice ≠ [] := by decide
    exact hnonempty _ grep.documented

/-- What the check accepts: the last two numbers are recent, and in a line of text. -/
theorem newEnough_glibcVer (houtput : firstLine lddOutput = line.text) :
    newEnough (glibcVer grep lddOutput) = true ↔
      grep.isText line.text = true ∧ TakenForRecent line.lastTwo := by
  rw [glibcVer_eq houtput]
  split
  · next hisText => rw [newEnough_dotted, and_iff_right hisText]
  · next hisText => simp [newEnough_notice _ grep.documented, hisText]

end Check

/-! ## When the check is right -/

/-- One more check has passed. -/
def ReportsOk (before after : Report) : Prop :=
  after.passed = before.passed + 1 ∧ after.warned = before.warned ∧ after.failed = before.failed

/-- One more check has failed. -/
def ReportsFailed (before after : Report) : Prop :=
  after.passed = before.passed ∧ after.warned = before.warned ∧ after.failed = before.failed + 1

/-- The check passes exactly if the version is recent, and fails otherwise. -/
structure GlibcRight (line : VersionLine) (before after : Report) : Prop where
  ok : ReportsOk before after ↔ line.Recent
  failed : ¬ line.Recent → ReportsFailed before after

section Right

variable {lddOutput : Bytes} {line : VersionLine}

theorem reports_glibcCheck (grep : Grep) (houtput : firstLine lddOutput = line.text)
    (report : Report) :
    (ReportsOk report (glibcCheck grep lddOutput report) ↔
      newEnough (glibcVer grep lddOutput) = true) ∧
    (newEnough (glibcVer grep lddOutput) = false →
      ReportsFailed report (glibcCheck grep lddOutput report)) := by
  have hversion := @glibcVer_ne_nil grep lddOutput line houtput
  cases hnew : newEnough (glibcVer grep lddOutput) <;>
    simp [glibcCheck, hversion, hnew, ReportsOk, ReportsFailed, Report.ok, Report.fail, Report.say]

/-- The check is right where it accepts just the recent versions. -/
theorem right_iff_newEnough (grep : Grep) (houtput : firstLine lddOutput = line.text)
    (report : Report) :
    GlibcRight line report (glibcCheck grep lddOutput report) ↔
      (line.Recent ↔ newEnough (glibcVer grep lddOutput) = true) := by
  obtain ⟨hok, hfailed⟩ := reports_glibcCheck grep houtput report
  constructor
  · intro hright
    exact hright.ok.symm.trans hok
  · intro hsame
    refine ⟨hok.trans hsame.symm, fun hold => hfailed ?_⟩
    exact Bool.eq_false_iff.mpr fun hnew => hold (hsame.mpr hnew)

/-- The check is right about a version exactly if the last two numbers of it, in a line of
text and as far as the shell can read them, are taken for a recent version where it is one. -/
theorem glibcRight_iff (grep : Grep) (houtput : firstLine lddOutput = line.text)
    (report : Report) :
    GlibcRight line report (glibcCheck grep lddOutput report) ↔
      (line.Recent ↔ grep.isText line.text = true ∧ TakenForRecent line.lastTwo) := by
  rw [right_iff_newEnough grep houtput, newEnough_glibcVer houtput]

/-- So it is right about every version of two numbers that the shell can read. -/
theorem glibcRight_of_twoNumbers (grep : Grep) (houtput : firstLine lddOutput = line.text)
    (report : Report) (hpatch : line.patch = none) (hisText : grep.isText line.text = true)
    (hmajor : line.major.value < 2 ^ 63) (hminor : line.minor.value < 2 ^ 63) :
    GlibcRight line report (glibcCheck grep lddOutput report) := by
  have hlast : line.lastTwo = (line.major, line.minor) := by simp [VersionLine.lastTwo, hpatch]
  rw [right_iff_newEnough grep houtput, newEnough_glibcVer houtput, hlast,
    and_iff_right hisText, TakenForRecent]
  exact (and_iff_left ⟨hmajor, fun _ => hminor⟩).symm

end Right

/-! ## Two versions -/

instance (line : VersionLine) : Decidable line.Recent :=
  inferInstanceAs (Decidable (toLex (2, 34) ≤ toLex (_, _)))

instance (numbers : Number × Number) : Decidable (TakenForRecent numbers) :=
  inferInstanceAs (Decidable (toLex (2, 34) ≤ toLex (_, _) ∧ _ < 2 ^ 63 ∧ (_ = 2 → _ < 2 ^ 63)))

/-- In a locale of single bytes all lines are text. -/
def byteGrep : Grep where
  isText line := nul ∉ line
  notice := notices.head (by decide)
  documented := List.head_mem _

/-- What `ldd` prints before the version. -/
def lddFront : Bytes := bytes "ldd (GNU libc) "

/-- A release. -/
def release : VersionLine where
  front := lddFront
  major := ⟨bytes "2", by decide, by decide⟩
  minor := ⟨bytes "39", by decide, by decide⟩
  patch := none
  whole := by decide

/-- What became of 2.33 before 2.34 was released. -/
def snapshot : VersionLine where
  front := lddFront
  major := ⟨bytes "2", by decide, by decide⟩
  minor := ⟨bytes "33", by decide, by decide⟩
  patch := some ⟨bytes "9000", by decide, by decide⟩
  whole := by decide

/-- The diagnostic before its second check. -/
def oneCheck : Report := ⟨1, 0, 0, []⟩

theorem glibcRight_release :
    GlibcRight release oneCheck
      (glibcCheck byteGrep (bytes "ldd (GNU libc) 2.39\nCopyright") oneCheck) :=
  (glibcRight_iff byteGrep (by decide) oneCheck).mpr (by decide)

/-- 2.33.9000 is taken for 33.9000. -/
theorem not_glibcRight_snapshot :
    ¬ ∀ (grep : Grep) (lddOutput : Bytes) (line : VersionLine) (report : Report),
      firstLine lddOutput = line.text →
        GlibcRight line report (glibcCheck grep lddOutput report) := by
  intro hall
  have hright := hall byteGrep (bytes "ldd (GNU libc) 2.33.9000\n") snapshot oneCheck (by decide)
  have hnew : newEnough (glibcVer byteGrep (bytes "ldd (GNU libc) 2.33.9000\n")) = true := by decide
  have hok := (reports_glibcCheck byteGrep (by decide : _ = snapshot.text) oneCheck).1.mpr hnew
  exact absurd (hright.ok.mp hok) (by decide)

end TizenRoblox.Diagnose
