/-
# The diagnostic

`diagnose.sh` from its first line to its exit status. It changes nothing on the TV: each of
its checks says what it has found and counts it as passed, as a warning or as a failure. The
numbers of the summary are those of the lines above it, and the script reports success
exactly on a TV that has all it asks for (`diagnose_verdict`).

What programs outside the script print (`uname`, `ldd`, `du`, `eglinfo`, `ls`) is given with
the TV.
-/

import TizenRoblox.Credentials.Agreement
import TizenRoblox.Diagnose.Glibc
import TizenRoblox.Diagnose.Libraries
import TizenRoblox.Shell.Glob

namespace TizenRoblox.Diagnose

open TizenRoblox.Foundation TizenRoblox.Posix TizenRoblox.Shell TizenRoblox.Launcher
open TizenRoblox.Credentials TizenRoblox.Shell.Glob

/-! ## What the script finds -/

structure Tv where
  tree : Tree
  cwd : Path
  globbing : Globbing
  grep : Grep
  cache : List CacheLine
  /-- `TIZENROBLOX_DIR` -/
  tizenrobloxDir : Bytes
  /-- `DBUS_SESSION_BUS_ADDRESS` -/
  busAddress : Bytes
  /-- `date`, `uname -m`, `uname -r`, and `ldd --version` -/
  date : Bytes
  machine : Bytes
  release : Bytes
  lddVersion : Bytes
  /-- `du -h` of a file, its first field -/
  diskUsage : Bytes → Bytes
  /-- The first line of `eglinfo` with the vendor, where the program exists. -/
  eglVendor : Option Bytes
  /-- The first line that `ls` prints of a pattern. -/
  firstListed : Bytes → Bytes
  /-- `dbus-launch` exists. -/
  dbusLaunch : Bool
  /-- `-x` and `-w` -/
  canExecute : Bytes → Bool
  canWrite : Bytes → Bool
  /-- What `cat` prints of the name of an input device. -/
  deviceName : Bytes → Bytes

namespace Report

variable (report : Report)

def sayAll (lines : List Bytes) : Report := lines.foldl (fun report line => report.say line) report

/-- `echo ""` and the title of a section -/
def heading (title : String) : Report := report.sayAll [[], bytes title]

/-- A check that has to pass, and what is said besides if it does not. -/
def require (holds : Bool) (good bad : Bytes) (advice : List Bytes) : Report :=
  if holds then report.ok good else (report.fail bad).sayAll advice

/-- A check that may only warn. -/
def prefer (holds : Bool) (good bad : Bytes) (advice : List Bytes) : Report :=
  if holds then report.ok good else (report.warn bad).sayAll advice

/-- One check for each item. -/
def each {Item : Type} (items : List Item) (check : Item → Report → Report) : Report :=
  items.foldl (fun report item => check item report) report

end Report

section Checks

variable (tv : Tv)

/-- `INSTALL_DIR` -/
def Tv.installDir : Bytes := diagnoseInstallDir tv.tizenrobloxDir

def Tv.isFile (file : Bytes) : Bool := tv.tree.isFile tv.cwd (.ofBytes file)

/-- `[ -f file ] || [ -L file ]` -/
def Tv.isFileOrLink (file : Bytes) : Bool :=
  tv.isFile file || tv.tree.isLink tv.cwd (.ofBytes file)

/-- `path=$(find_lib soname)` -/
def Tv.foundPath (soname : Bytes) : Bytes :=
  commandSubstitution (findLib tv.cwd tv.tree tv.cache tv.installDir soname)

/-- `[ -n "${path}" ]` -/
def Tv.found (soname : Bytes) : Bool := tv.foundPath soname ≠ []

/-! ## The checks -/

def opening (report : Report) : Report := report.sayAll [
  bytes "=== TizenRoblox Runtime Diagnostics ===",
  bytes "Install dir: " ++ tv.installDir,
  bytes "Date: " ++ commandSubstitution tv.date]

def architecture (report : Report) : Report :=
  let arch := commandSubstitution tv.machine
  (report.heading "--- Architecture ---").require (arch = bytes "aarch64")
    (bytes "Architecture: aarch64 (ARM64) ✓")
    (bytes "Architecture: " ++ arch ++ bytes " (expected aarch64)") []

def isUinput : Bool := tv.tree.isCharDevice tv.cwd (.ofBytes (bytes "/dev/uinput"))

def kernel (report : Report) : Report :=
  let report := (report.heading "--- Kernel ---").ok
    (bytes "Kernel: " ++ commandSubstitution tv.release)
  if isUinput tv then
    (report.ok (bytes "/dev/uinput present")).prefer (tv.canWrite (bytes "/dev/uinput"))
      (bytes "/dev/uinput writable (virtual gamepad will work)")
      (bytes "/dev/uinput not writable — run as root or add to 'input' group") []
  else
    (report.fail (bytes "/dev/uinput not found — virtual gamepad will not work")).sayAll
      [bytes "     Try: modprobe uinput"]

/-- `INTERP` -/
def interp : Bytes := bytes "/lib/ld-linux-aarch64.so.1"

def otherInterps : List Bytes := [
  bytes "/lib/aarch64-linux-gnu/ld-linux-aarch64.so.1",
  bytes "/usr/lib/ld-linux-aarch64.so.1",
  bytes "/usr/lib64/ld-linux-aarch64.so.1"]

/-- `ALT_INTERP` -/
def altInterp : Option Bytes := otherInterps.find? tv.isFile

def elfCheck (report : Report) : Report :=
  let report := report.heading "--- ELF Interpreter ---"
  if tv.isFileOrLink interp then report.ok (bytes "ELF interpreter: " ++ interp)
  else
    match altInterp tv with
    | some alt =>
        report.warn (bytes "ELF interpreter at " ++ alt ++
          bytes " (not /lib/) — launcher will symlink")
    | none =>
        (report.fail (bytes
          "ELF interpreter ld-linux-aarch64.so.1 not found — sober will not start")).sayAll [bytes
          "     Try: ln -sf $(find / -name ld-linux-aarch64.so.1 2>/dev/null | head -1) /lib/"]

/-- `SOBER` -/
def Tv.sober : Bytes := soberBin tv.installDir

def loaderFiles : List Bytes := [
  bytes "libloader.so", bytes "libbadcpu.so", bytes "subprojects/mimalloc/libmimalloc.so.3"]

/-- `${INSTALL_DIR}/bin/${f}` -/
def Tv.inBin (file : Bytes) : Bytes := tv.installDir ++ bytes "/bin/" ++ file

def soberBinary (report : Report) : Report :=
  ((report.heading "--- Sober Binary ---").require (tv.canExecute tv.sober)
      (bytes "sober binary: " ++ tv.sober ++ bytes " (" ++
        commandSubstitution (tv.diskUsage tv.sober) ++ bytes ")")
      (bytes "sober binary not found at " ++ tv.sober)
      [bytes "     Run: bash scripts/extract_sober.sh <your.flatpak>"]).each loaderFiles
    fun file report => report.require (tv.isFile (tv.inBin file))
      (bytes "Sober bundled lib: " ++ tv.inBin file)
      (bytes "Missing bundled lib: " ++ tv.inBin file) []

def socketNames : List Bytes := [bytes "wayland-0", bytes "wayland-1"]

def socketDirectories : List Bytes := [
  bytes "/run/display", bytes "/tmp/.RTE", bytes "/run/enlightenment", bytes "/run/user/5000",
  bytes "/run/user/0"]

/-- `${dir}/${socket}`, in the order in which the loops come to them. -/
def socketPaths : List Bytes :=
  socketNames.flatMap fun socket => socketDirectories.map fun dir => dir ++ slash :: socket

/-- The first socket that the loops come to. -/
def waylandSocket : Option Bytes :=
  socketPaths.find? fun path => tv.tree.isSocket tv.cwd (.ofBytes path)

def waylandLibraries : List Bytes := [
  bytes "libwayland-client.so.0", bytes "libwayland-egl.so.1", bytes "libwayland-cursor.so.0"]

def waylandDisplay (report : Report) : Report :=
  let report := report.heading "--- Wayland Display ---"
  let report :=
    match waylandSocket tv with
    | some path => report.ok (bytes "Wayland socket: " ++ path)
    | none => report.fail (bytes ("No Wayland socket found " ++
        "(tried /run/display, /tmp/.RTE, /run/enlightenment, /run/user/5000)"))
  let report := report.each waylandLibraries fun lib report =>
    if tv.found lib then report.ok (lib ++ bytes ": " ++ tv.foundPath lib)
    else if lib = bytes "libwayland-cursor.so.0" then
      report.warn (lib ++ bytes " not found (cursor shapes disabled, OK for TV)")
    else report.fail (lib ++ bytes " not found — Wayland display will NOT work")
  report.prefer (tv.found (bytes "libxkbcommon.so.0"))
    (bytes "libxkbcommon.so.0: " ++ tv.foundPath (bytes "libxkbcommon.so.0"))
    (bytes "libxkbcommon.so.0 not found (keyboard input disabled, OK for TV)") []

def graphicsLibraries : List Bytes := [bytes "libEGL.so.1", bytes "libGLESv2.so.2"]

/-- `ls pattern >/dev/null 2>&1` -/
def Tv.lists (pattern : Bytes) : Bool :=
  (tv.globbing.expand tv.tree tv.cwd pattern).all fun name =>
    (tv.tree.lstat tv.cwd (.ofBytes name)).isSome

/-- The vendor of EGL, where `eglinfo` tells it. -/
def eglInfo (report : Report) : Report :=
  match tv.eglVendor with
  | some output =>
      let vendor := commandSubstitution output
      report.ok (bytes "EGL info: " ++ if vendor = [] then bytes "unknown" else vendor)
  | none => report

/-- The nodes of the GPU. -/
def gpuDevice (report : Report) : Report :=
  if tv.lists (bytes "/dev/dri/card*") then
    report.ok (bytes "GPU device: " ++
      commandSubstitution (tv.firstListed (bytes "/dev/dri/card*")))
  else if tv.lists (bytes "/dev/mali*") then
    report.ok (bytes "Mali GPU device: " ++
      commandSubstitution (tv.firstListed (bytes "/dev/mali*")))
  else report.warn (bytes "/dev/dri/card* and /dev/mali* not found — GPU access may fail")

def graphics (report : Report) : Report :=
  let libraries := (report.heading "--- GPU / EGL ---").each graphicsLibraries fun lib report =>
    report.require (tv.found lib) (lib ++ bytes ": " ++ tv.foundPath lib)
      (lib ++ bytes " not found — 3D rendering will not work") []
  gpuDevice tv (eglInfo tv libraries)

def audio (report : Report) : Report :=
  ((report.heading "--- Audio ---").prefer (tv.found (bytes "libasound.so.2"))
    (bytes "ALSA (libasound.so.2): " ++ tv.foundPath (bytes "libasound.so.2"))
    (bytes "libasound.so.2 not found — no ALSA audio") []).prefer
    (tv.found (bytes "libpulse.so.0"))
    (bytes "PulseAudio (libpulse.so.0): " ++ tv.foundPath (bytes "libpulse.so.0"))
    (bytes "libpulse.so.0 not found — no PulseAudio (ALSA fallback if available)") []

/-- `${INSTALL_DIR}/lib/${lib}` -/
def Tv.inLib (lib : Bytes) : Bytes := tv.installDir ++ bytes "/lib/" ++ lib

/-- `BUNDLED_LIBS` -/
def bundledLibs : List Bytes := [
  bytes "libcrypto.so.3", bytes "libcurl.so.4", bytes "libxml2.so.16", bytes "libglib-2.0.so.0",
  bytes "libgobject-2.0.so.0", bytes "libfreetype.so.6", bytes "libfontconfig.so.1"]

def bundledLibraries (report : Report) : Report :=
  (report.heading "--- Bundled Libraries (self-contained, no system dependency) ---").each
    bundledLibs fun lib report => report.require (tv.isFileOrLink (tv.inLib lib))
      (bytes "Bundled: " ++ lib) (bytes "Missing bundled lib: " ++ tv.inLib lib)
      [bytes "     Run: bash scripts/build_thirdparty.sh && bash scripts/build.sh"]

/-- `STUB_LIBS` -/
def stubLibs : List Bytes := [
  bytes "libsecret-1.so.0", bytes "libdecor-0.so.0", bytes "libgstreamer-1.0.so.0",
  bytes "libgstapp-1.0.so.0", bytes "libgstvideo-1.0.so.0", bytes "libdbus-1.so.3"]

def delegatingStubs (report : Report) : Report :=
  (report.heading "--- Delegating Stubs/Shims ---").each stubLibs fun lib report =>
    report.require (tv.isFileOrLink (tv.inLib lib)) (bytes "Stub: " ++ lib)
      (bytes "Missing stub: " ++ tv.inLib lib) [bytes "     Run: bash scripts/build.sh"]

/-- Where the session bus is, or will be. -/
def sessionBus (report : Report) : Report :=
  if tv.busAddress ≠ [] then report.ok (bytes "D-Bus session: " ++ tv.busAddress)
  else if tv.dbusLaunch then
    report.ok (bytes "dbus-launch available (will be started by launcher)")
  else report.warn (bytes "No D-Bus session and no dbus-launch — libsecret may not work")

def dbus (report : Report) : Report :=
  sessionBus tv <| (report.heading "--- D-Bus ---").prefer (tv.found (bytes "libdbus-1.so.3"))
    (bytes "libdbus-1.so.3: " ++ tv.foundPath (bytes "libdbus-1.so.3"))
    (bytes "libdbus-1.so.3 not found at standard paths — stub will attempt runtime load") []

/-- The kinds of input devices that the script tells apart by their names. -/
inductive DeviceKind
  | remote
  | gamepad
  deriving DecidableEq

def remotePatterns : List Bytes := [
  bytes "*Samsung*", bytes "*TV*Remote*", bytes "*RC*", bytes "*CEC*"]

def gamepadPatterns : List Bytes := [
  bytes "*Xbox*", bytes "*PlayStation*", bytes "*DualShock*", bytes "*Gamepad*",
  bytes "*Controller*"]

/-- `case "${name}" in` -/
def kindOf (name : Bytes) : Option DeviceKind :=
  if remotePatterns.any fun pattern => globMatch pattern name then some .remote
  else if gamepadPatterns.any fun pattern => globMatch pattern name then some .gamepad
  else none

/-- What is reported of a device, if it is one. -/
def kindOfDevice (device : Bytes) : Option DeviceKind :=
  if tv.tree.isCharDevice tv.cwd (.ofBytes device) then
    kindOf (commandSubstitution (tv.deviceName device))
  else none

/-- `/dev/input/event*` -/
def eventDevices : List Bytes := tv.globbing.expand tv.tree tv.cwd (bytes "/dev/input/event*")

def reportDevice (device : Bytes) (report : Report) : Report :=
  let text := device ++ bytes " (" ++ commandSubstitution (tv.deviceName device) ++ bytes ")"
  match kindOfDevice tv device with
  | some .remote => report.ok (bytes "Samsung remote: " ++ text)
  | some .gamepad => report.ok (bytes "Gamepad: " ++ text)
  | none => report

/-- `REMOTE_COUNT` and `GAMEPAD_COUNT` -/
def countOf (kind : DeviceKind) : ℕ := (eventDevices tv).countP (kindOfDevice tv · = some kind)

def warnIfNone (kind : DeviceKind) (text : Bytes) (report : Report) : Report :=
  if countOf tv kind = 0 then report.warn text else report

def inputDevices (report : Report) : Report :=
  let report := (report.heading "--- Input Devices ---").prefer
    (tv.canExecute (inputMapperBin tv.installDir)) (bytes "input_mapper binary present")
    (bytes "input_mapper not found — Samsung remote won't act as gamepad") []
  warnIfNone tv .gamepad (bytes "No physical gamepad detected (optional)") <|
    warnIfNone tv .remote (bytes "No Samsung TV remote detected (may appear after boot)") <|
      report.each (eventDevices tv) (reportDevice tv)

def systemLibs : List Bytes := [
  bytes "libc.so.6", bytes "libm.so.6", bytes "libz.so.1", bytes "libgcc_s.so.1"]

def systemLibrariesCheck (report : Report) : Report :=
  (report.heading "--- System Libraries ---").each systemLibs fun lib report =>
    report.require (tv.found lib) (bytes "System: " ++ lib)
      (bytes "Missing system lib: " ++ lib ++ bytes " — Tizen is broken") []

def credentials (report : Report) : Report :=
  let credsFile := diagnoseCredsFile tv.tizenrobloxDir
  (report.heading "--- Credentials ---").prefer (tv.isFile credsFile)
    (bytes "Credentials file exists: " ++ credsFile)
    (bytes "No credentials file — run: bash scripts/setup.sh")
    [bytes "     Without credentials, Roblox will show login screen"]

/-! ## The script -/

/-- The checks, in their order. -/
def checks : List (Report → Report) := [
  opening tv, architecture tv, glibcCheck tv.grep tv.lddVersion, kernel tv, elfCheck tv,
  soberBinary tv, waylandDisplay tv, graphics tv, audio tv, bundledLibraries tv,
  delegatingStubs tv, dbus tv, inputDevices tv, systemLibrariesCheck tv, credentials tv]

/-- Nothing has been said. -/
def blankReport : Report := ⟨0, 0, 0, []⟩

def checked : Report := (checks tv).foldl (fun report check => check report) blankReport

/-- The line of the summary. -/
def summaryLine (report : Report) : Bytes :=
  green ++ bytes "PASS" ++ noColour ++ bytes ": " ++ decimal report.passed ++ bytes "  " ++
    yellow ++ bytes "WARN" ++ noColour ++ bytes ": " ++ decimal report.warned ++ bytes "  " ++
    red ++ bytes "FAIL" ++ noColour ++ bytes ": " ++ decimal report.failed

def notReadyLine : Bytes :=
  red ++ bytes "System is NOT ready. Fix the FAIL items above before launching." ++ noColour

def mostlyReadyLine : Bytes :=
  yellow ++ bytes "System is mostly ready. Review WARN items for best experience." ++ noColour

def readyLine : Bytes :=
  green ++ bytes "System is ready. Launch with: " ++ tv.installDir ++ bytes "/bin/launch.sh" ++
    noColour

def verdictLine (report : Report) : Bytes :=
  if 0 < report.failed then notReadyLine
  else if 0 < report.warned then mostlyReadyLine
  else readyLine tv

def summary (report : Report) : Report :=
  report.sayAll [[], bytes "=== Summary ===", summaryLine report, [], verdictLine tv report]

/-- What the script says in the end, and its exit status. -/
def diagnose : Report × ℕ :=
  (summary tv (checked tv), if 0 < (checked tv).failed then 1 else 0)

end Checks

/-! ## What a check does to the report -/

section Judging

/-- The lines of `ok`, `warn` and `fail` start with these. -/
def okMark : Bytes := green ++ bytes "[OK]" ++ noColour ++ bytes "   "

def warnMark : Bytes := yellow ++ bytes "[WARN]" ++ noColour ++ bytes " "

def failMark : Bytes := red ++ bytes "[FAIL]" ++ noColour ++ bytes " "

/-- Each number is that of the lines with its mark. -/
structure Counted (report : Report) : Prop where
  passed : report.passed = report.said.countP okMark.isPrefixOf
  warned : report.warned = report.said.countP warnMark.isPrefixOf
  failed : report.failed = report.said.countP failMark.isPrefixOf

/-- A line without a mark. -/
def Plain (line : Bytes) : Prop :=
  okMark.isPrefixOf line = false ∧ warnMark.isPrefixOf line = false ∧
    failMark.isPrefixOf line = false

/-- What a check does keeps the numbers right, and adds to the failures unless what it asks
for holds. -/
structure Judged (holds : Prop) (before after : Report) : Prop where
  counted : Counted before → Counted after
  grows : before.failed ≤ after.failed
  failed : after.failed = before.failed ↔ holds

theorem plain_of_head {line : Bytes} (hhead : line.head? ≠ some 92) : Plain line := by
  cases line with
  | nil => exact ⟨rfl, rfl, rfl⟩
  | cons byte rest =>
      have hbyte : (92 == byte) = false :=
        beq_false_of_ne fun heq => hhead (by rw [← heq, List.head?_cons])
      have hmark : ∀ mark : Bytes, (92 :: mark).isPrefixOf (byte :: rest) = false := by
        intro mark
        rw [List.isPrefixOf_cons_cons, hbyte, Bool.false_and]
      exact ⟨hmark _, hmark _, hmark _⟩

theorem plain_append {front : Bytes} (hfront : front.head?.any (· ≠ 92) = true) (back : Bytes) :
    Plain (front ++ back) := by
  cases front with
  | nil => cases hfront
  | cons byte rest => exact plain_of_head (by simpa using hfront)

section Rules

variable {holds other : Prop} {before between after : Report}

theorem Judged.congr (hjudged : Judged holds before after) (hiff : holds ↔ other) :
    Judged other before after :=
  ⟨hjudged.counted, hjudged.grows, hjudged.failed.trans hiff⟩

/-- Two checks, one after the other. -/
theorem Judged.trans (hfirst : Judged holds before between) (hsecond : Judged other between after) :
    Judged (holds ∧ other) before after where
  counted hcounted := hsecond.counted (hfirst.counted hcounted)
  grows := hfirst.grows.trans hsecond.grows
  failed := by
    rw [← hfirst.failed, ← hsecond.failed]
    have hmiddle := hfirst.grows
    have hlast := hsecond.grows
    omega

/-- A check after something that asks for nothing. -/
theorem Judged.next (hfirst : Judged True before between) (hsecond : Judged other between after) :
    Judged other before after :=
  (hfirst.trans hsecond).congr (by simp)

/-- Something that asks for nothing after a check. -/
theorem Judged.also (hfirst : Judged holds before between) (hsecond : Judged True between after) :
    Judged holds before after :=
  (hfirst.trans hsecond).congr (by simp)

end Rules

variable (report : Report)

theorem judged_self : Judged True report report where
  counted hcounted := hcounted
  grows := le_rfl
  failed := iff_of_true rfl trivial

/-- A check for each item. -/
theorem judged_each {Item : Type} {items : List Item} {property : Item → Prop}
    {check : Item → Report → Report}
    (hcheck : ∀ item ∈ items, ∀ report, Judged (property item) report (check item report)) :
    Judged (∀ item ∈ items, property item) report (report.each items check) := by
  induction items generalizing report with
  | nil => exact (judged_self report).congr (by simp)
  | cons item rest ih =>
      obtain ⟨hitem, hrest⟩ := List.forall_mem_cons.mp hcheck
      exact ((hitem report).trans (ih (check item report) hrest)).congr (by simp)

theorem judged_say {line : Bytes} (hplain : Plain line) : Judged True report (report.say line) where
  counted hcounted := by
    obtain ⟨hok, hwarn, hfail⟩ := hplain
    obtain ⟨hpassed, hwarned, hfailed⟩ := hcounted
    constructor <;> simp [Report.say, List.countP_append, *]
  grows := le_rfl
  failed := by simp [Report.say]

theorem judged_sayAll {lines : List Bytes} (hplain : ∀ line ∈ lines, Plain line) :
    Judged True report (report.sayAll lines) :=
  (judged_each report fun line hline report => judged_say report (hplain line hline)).congr
    (by simp)

theorem judged_heading {title : String} (hplain : (bytes title).head? ≠ some 92) :
    Judged True report (report.heading title) := by
  apply judged_sayAll
  rw [List.forall_mem_cons, List.forall_mem_singleton]
  exact ⟨plain_of_head (by decide), plain_of_head hplain⟩

theorem judged_ok (text : Bytes) : Judged True report (report.ok text) where
  counted hcounted := by
    obtain ⟨hpassed, hwarned, hfailed⟩ := hcounted
    have hmark : okMark.isPrefixOf (okMark ++ text) = true := by simp
    have hwarn : warnMark.isPrefixOf (okMark ++ text) = false := rfl
    have hfail : failMark.isPrefixOf (okMark ++ text) = false := rfl
    have hsaid : (report.ok text).said = report.said ++ [okMark ++ text] := rfl
    constructor <;>
      simp only [hsaid, List.countP_append, List.countP_singleton, hmark, hwarn, hfail] <;>
      simp [Report.ok, Report.say, *]
  grows := le_rfl
  failed := by simp [Report.ok, Report.say]

theorem judged_warn (text : Bytes) : Judged True report (report.warn text) where
  counted hcounted := by
    obtain ⟨hpassed, hwarned, hfailed⟩ := hcounted
    have hok : okMark.isPrefixOf (warnMark ++ text) = false := rfl
    have hmark : warnMark.isPrefixOf (warnMark ++ text) = true := by simp
    have hfail : failMark.isPrefixOf (warnMark ++ text) = false := rfl
    have hsaid : (report.warn text).said = report.said ++ [warnMark ++ text] := rfl
    constructor <;>
      simp only [hsaid, List.countP_append, List.countP_singleton, hmark, hok, hfail] <;>
      simp [Report.warn, Report.say, *]
  grows := le_rfl
  failed := by simp [Report.warn, Report.say]

theorem judged_fail (text : Bytes) : Judged False report (report.fail text) where
  counted hcounted := by
    obtain ⟨hpassed, hwarned, hfailed⟩ := hcounted
    have hok : okMark.isPrefixOf (failMark ++ text) = false := rfl
    have hwarn : warnMark.isPrefixOf (failMark ++ text) = false := rfl
    have hmark : failMark.isPrefixOf (failMark ++ text) = true := by simp
    have hsaid : (report.fail text).said = report.said ++ [failMark ++ text] := rfl
    constructor <;>
      simp only [hsaid, List.countP_append, List.countP_singleton, hmark, hok, hwarn] <;>
      simp [Report.fail, Report.say, *]
  grows := Nat.le_succ _
  failed := by simp [Report.fail, Report.say]

theorem judged_require {condition : Bool} {good bad : Bytes} {advice : List Bytes}
    (hplain : ∀ line ∈ advice, Plain line) :
    Judged (condition = true) report (report.require condition good bad advice) := by
  cases condition with
  | true => exact (judged_ok report good).congr (by simp)
  | false =>
      exact ((judged_fail report bad).also (judged_sayAll _ hplain)).congr (by simp)

theorem judged_prefer {condition : Bool} {good bad : Bytes} {advice : List Bytes}
    (hplain : ∀ line ∈ advice, Plain line) :
    Judged True report (report.prefer condition good bad advice) := by
  cases condition with
  | true => exact judged_ok report good
  | false => exact (judged_warn report bad).also (judged_sayAll _ hplain)

end Judging

/-! ## What the checks ask for -/

section Requirements

variable (tv : Tv)

/-- The version of glibc cannot be told, or is taken for a recent one. -/
def GlibcAccepted : Prop :=
  glibcVer tv.grep tv.lddVersion = [] ∨ newEnough (glibcVer tv.grep tv.lddVersion) = true

/-- There is an interpreter, or the launcher will link one. -/
def InterpreterFound : Prop :=
  tv.isFileOrLink interp = true ∨ ∃ path ∈ otherInterps, tv.isFile path = true

/-- All that the script asks for. -/
structure Ready : Prop where
  architecture : commandSubstitution tv.machine = bytes "aarch64"
  glibc : GlibcAccepted tv
  uinput : isUinput tv = true
  interpreter : InterpreterFound tv
  sober : tv.canExecute tv.sober = true
  loader : ∀ file ∈ loaderFiles, tv.isFile (tv.inBin file) = true
  socket : ∃ path ∈ socketPaths, tv.tree.isSocket tv.cwd (.ofBytes path) = true
  wayland : ∀ lib ∈ waylandLibraries, lib ≠ bytes "libwayland-cursor.so.0" → tv.found lib = true
  graphics : ∀ lib ∈ graphicsLibraries, tv.found lib = true
  bundled : ∀ lib ∈ bundledLibs, tv.isFileOrLink (tv.inLib lib) = true
  stubs : ∀ lib ∈ stubLibs, tv.isFileOrLink (tv.inLib lib) = true
  system : ∀ lib ∈ systemLibs, tv.found lib = true

variable (report : Report)

theorem judged_opening : Judged True report (opening tv report) := by
  apply judged_sayAll
  rw [List.forall_mem_cons, List.forall_mem_cons, List.forall_mem_singleton]
  exact ⟨plain_of_head (by decide), plain_append (by decide) _, plain_append (by decide) _⟩

theorem judged_architecture :
    Judged (commandSubstitution tv.machine = bytes "aarch64") report (architecture tv report) :=
  ((judged_heading report (by decide)).next (judged_require _ (by simp))).congr (by simp)

theorem judged_glibcCheck :
    Judged (GlibcAccepted tv) report (glibcCheck tv.grep tv.lddVersion report) := by
  have hstart : Judged True report (report.heading "--- glibc Version ---") :=
    judged_heading report (by decide)
  unfold glibcCheck GlibcAccepted
  apply hstart.next
  dsimp only
  split
  · next hversion =>
      split
      · next hnew => exact (judged_ok _ _).congr (by simp [hnew])
      · next hold =>
          apply ((judged_fail _ _).also (judged_say _ (plain_of_head _))).congr
          · simp [hversion, hold]
          · decide
  · next hversion =>
      have hnone : glibcVer tv.grep tv.lddVersion = [] := not_not.mp hversion
      exact (judged_warn _ _).congr (by simp [hnone])

theorem judged_kernel : Judged (isUinput tv = true) report (kernel tv report) := by
  have hstart : Judged True report ((report.heading "--- Kernel ---").ok
      (bytes "Kernel: " ++ commandSubstitution tv.release)) :=
    (judged_heading report (by decide)).next (judged_ok _ _)
  unfold kernel
  apply hstart.next
  split
  · next hpresent =>
      exact ((judged_ok _ _).next (judged_prefer _ (by simp))).congr (by simp [hpresent])
  · next habsent =>
      apply ((judged_fail _ _).also (judged_sayAll _ _)).congr
      · simp [habsent]
      · rw [List.forall_mem_singleton]
        exact plain_of_head (by decide)

theorem judged_elfCheck : Judged (InterpreterFound tv) report (elfCheck tv report) := by
  have hstart : Judged True report (report.heading "--- ELF Interpreter ---") :=
    judged_heading report (by decide)
  unfold elfCheck InterpreterFound
  apply hstart.next
  split
  · next hfound => exact (judged_ok _ _).congr (by simp [hfound])
  · next hmissing =>
      split
      · next alt halt =>
          have hfile : tv.isFile alt = true := List.find?_some halt
          have hmem := List.mem_of_find?_eq_some halt
          exact (judged_warn _ _).congr (iff_of_true trivial (.inr ⟨alt, hmem, hfile⟩))
      · next hnone =>
          apply ((judged_fail _ _).also (judged_sayAll _ _)).congr
          · simpa [hmissing, altInterp] using hnone
          · rw [List.forall_mem_singleton]
            exact plain_of_head (by decide)

theorem judged_soberBinary :
    Judged (tv.canExecute tv.sober = true ∧
      ∀ file ∈ loaderFiles, tv.isFile (tv.inBin file) = true) report (soberBinary tv report) := by
  have hstart : Judged True report (report.heading "--- Sober Binary ---") :=
    judged_heading report (by decide)
  apply (hstart.next (judged_require _ _)).trans (judged_each _ _)
  · rw [List.forall_mem_singleton]
    exact plain_of_head (by decide)
  · exact fun file _ report => judged_require report (by simp)

theorem judged_waylandDisplay :
    Judged ((∃ path ∈ socketPaths, tv.tree.isSocket tv.cwd (.ofBytes path) = true) ∧
      ∀ lib ∈ waylandLibraries, lib ≠ bytes "libwayland-cursor.so.0" → tv.found lib = true)
      report (waylandDisplay tv report) := by
  have hstart : Judged True report (report.heading "--- Wayland Display ---") :=
    judged_heading report (by decide)
  apply ((hstart.next _).trans (judged_each _ _)).also (judged_prefer _ (by simp))
  · split
    · next path hpath =>
        have hsocket := List.find?_some hpath
        have hmem := List.mem_of_find?_eq_some hpath
        exact (judged_ok _ _).congr (iff_of_true trivial ⟨path, hmem, hsocket⟩)
    · next hnone =>
        exact (judged_fail _ _).congr (by simpa [waylandSocket] using hnone)
  · intro lib _ report
    split
    · next hfound => exact (judged_ok _ _).congr (by simp [hfound])
    · next hmissing =>
        split
        · next hcursor => exact (judged_warn _ _).congr (by simp [hcursor])
        · next hother => exact (judged_fail _ _).congr (by simp [hmissing, hother])

theorem judged_eglInfo : Judged True report (eglInfo tv report) := by
  unfold eglInfo
  split
  · exact judged_ok _ _
  · exact judged_self _

theorem judged_gpuDevice : Judged True report (gpuDevice tv report) := by
  unfold gpuDevice
  split
  · exact judged_ok _ _
  · split
    · exact judged_ok _ _
    · exact judged_warn _ _

theorem judged_graphics :
    Judged (∀ lib ∈ graphicsLibraries, tv.found lib = true) report (graphics tv report) := by
  have hstart : Judged True report (report.heading "--- GPU / EGL ---") :=
    judged_heading report (by decide)
  apply ((hstart.next (judged_each _ _)).also (judged_eglInfo tv _)).also (judged_gpuDevice tv _)
  exact fun lib _ report => judged_require report (by simp)

theorem judged_audio : Judged True report (audio tv report) := by
  have hstart : Judged True report (report.heading "--- Audio ---") :=
    judged_heading report (by decide)
  exact (hstart.next (judged_prefer _ (by simp))).next (judged_prefer _ (by simp))

theorem judged_bundledLibraries :
    Judged (∀ lib ∈ bundledLibs, tv.isFileOrLink (tv.inLib lib) = true) report
      (bundledLibraries tv report) := by
  apply (judged_heading report (by decide)).next (judged_each _ _)
  intro lib _ report
  apply judged_require
  rw [List.forall_mem_singleton]
  exact plain_of_head (by decide)

theorem judged_delegatingStubs :
    Judged (∀ lib ∈ stubLibs, tv.isFileOrLink (tv.inLib lib) = true) report
      (delegatingStubs tv report) := by
  apply (judged_heading report (by decide)).next (judged_each _ _)
  intro lib _ report
  apply judged_require
  rw [List.forall_mem_singleton]
  exact plain_of_head (by decide)

theorem judged_sessionBus : Judged True report (sessionBus tv report) := by
  unfold sessionBus
  split
  · exact judged_ok _ _
  · split
    · exact judged_ok _ _
    · exact judged_warn _ _

theorem judged_dbus : Judged True report (dbus tv report) := by
  have hstart : Judged True report (report.heading "--- D-Bus ---") :=
    judged_heading report (by decide)
  exact (hstart.next (judged_prefer _ (by simp))).next (judged_sessionBus tv _)

theorem judged_reportDevice (device : Bytes) :
    Judged True report (reportDevice tv device report) := by
  unfold reportDevice
  split
  · exact judged_ok _ _
  · exact judged_ok _ _
  · exact judged_self _

theorem judged_warnIfNone (kind : DeviceKind) (text : Bytes) :
    Judged True report (warnIfNone tv kind text report) := by
  unfold warnIfNone
  split
  · exact judged_warn _ _
  · exact judged_self _

theorem judged_inputDevices : Judged True report (inputDevices tv report) := by
  have hstart : Judged True report (report.heading "--- Input Devices ---") :=
    judged_heading report (by decide)
  have hdevices : ∀ report : Report,
      Judged True report (report.each (eventDevices tv) (reportDevice tv)) := fun report =>
    (judged_each report fun device _ report => judged_reportDevice tv report device).congr (by simp)
  exact (((hstart.next (judged_prefer _ (by simp))).next (hdevices _)).next
    (judged_warnIfNone tv _ _ _)).next (judged_warnIfNone tv _ _ _)

theorem judged_systemLibrariesCheck :
    Judged (∀ lib ∈ systemLibs, tv.found lib = true) report (systemLibrariesCheck tv report) := by
  apply (judged_heading report (by decide)).next (judged_each _ _)
  exact fun lib _ report => judged_require report (by simp)

theorem judged_credentials : Judged True report (credentials tv report) := by
  apply (judged_heading report (by decide)).next (judged_prefer _ _)
  rw [List.forall_mem_singleton]
  exact plain_of_head (by decide)

theorem judged_summary : Judged True report (summary tv report) := by
  apply judged_sayAll
  simp only [List.forall_mem_cons]
  refine ⟨plain_of_head (by decide), plain_of_head (by decide), ⟨rfl, rfl, rfl⟩,
    plain_of_head (by decide), ?_, by simp⟩
  unfold verdictLine
  split
  · exact ⟨rfl, rfl, rfl⟩
  · split
    · exact ⟨rfl, rfl, rfl⟩
    · exact ⟨rfl, rfl, rfl⟩

/-- The checks together ask for just what a ready TV has. -/
theorem judged_checked : Judged (Ready tv) blankReport (checked tv) := by
  have hplatform := (((judged_opening tv blankReport).next (judged_architecture tv _)).trans
    (judged_glibcCheck tv _)).trans ((judged_kernel tv _).trans (judged_elfCheck tv _))
  have hprograms := hplatform.trans ((judged_soberBinary tv _).trans
    ((judged_waylandDisplay tv _).trans ((judged_graphics tv _).also (judged_audio tv _))))
  have hlibraries := hprograms.trans ((judged_bundledLibraries tv _).trans
    (((judged_delegatingStubs tv _).also (judged_dbus tv _)).also (judged_inputDevices tv _)))
  have hall := hlibraries.trans ((judged_systemLibrariesCheck tv _).also (judged_credentials tv _))
  apply hall.congr
  constructor
  · rintro ⟨⟨⟨⟨⟨harchitecture, hglibc⟩, huinput, hinterpreter⟩,
      ⟨hsober, hloader⟩, ⟨hsocket, hwayland⟩, hgraphics⟩, hbundled, hstubs⟩, hsystem⟩
    exact ⟨harchitecture, hglibc, huinput, hinterpreter, hsober, hloader, hsocket, hwayland,
      hgraphics, hbundled, hstubs, hsystem⟩
  · rintro ⟨harchitecture, hglibc, huinput, hinterpreter, hsober, hloader, hsocket, hwayland,
      hgraphics, hbundled, hstubs, hsystem⟩
    exact ⟨⟨⟨⟨⟨harchitecture, hglibc⟩, huinput, hinterpreter⟩,
      ⟨hsober, hloader⟩, ⟨hsocket, hwayland⟩, hgraphics⟩, hbundled, hstubs⟩, hsystem⟩

theorem counted_blankReport : Counted blankReport := ⟨rfl, rfl, rfl⟩

/-- The three verdicts are different lines, so each is given just where the numbers ask for it. -/
theorem verdictLine_spec :
    (verdictLine tv report = notReadyLine ↔ report.failed ≠ 0) ∧
      (verdictLine tv report = mostlyReadyLine ↔ report.failed = 0 ∧ report.warned ≠ 0) ∧
      (verdictLine tv report = readyLine tv ↔ report.failed = 0 ∧ report.warned = 0) := by
  have hmostly : notReadyLine ≠ mostlyReadyLine := by decide
  have hgreen : green.isPrefixOf (readyLine tv) = true := by simp [readyLine]
  have hnot : notReadyLine ≠ readyLine tv := fun heq =>
    absurd (heq ▸ hgreen) (by decide)
  have hwarned : mostlyReadyLine ≠ readyLine tv := fun heq =>
    absurd (heq ▸ hgreen) (by decide)
  unfold verdictLine
  split
  · next hfailed => simp [hmostly, hnot, Nat.ne_of_gt hfailed]
  · next hfailed =>
      have hzero : report.failed = 0 := Nat.eq_zero_of_not_pos hfailed
      split
      · next hwarns => simp [hmostly.symm, hwarned, hzero, Nat.ne_of_gt hwarns]
      · next hwarns => simp [hnot.symm, hwarned.symm, hzero, Nat.eq_zero_of_not_pos hwarns]

/-- The summary leaves the numbers as they are and says them, and the verdict on them comes
last. -/
theorem summary_spec :
    (summary tv report).failed = report.failed ∧
      summaryLine (summary tv report) ∈ (summary tv report).said ∧
      (summary tv report).said.getLast? = some (verdictLine tv (summary tv report)) := by
  have hsummary : summary tv report = { report with
      said := report.said ++ [[], bytes "=== Summary ===", summaryLine report, [],
        verdictLine tv report] } := by
    simp [summary, Report.sayAll, Report.say]
  rw [hsummary]
  exact ⟨rfl, by simp [summaryLine], by simp [verdictLine]⟩

/-- The summary gives the numbers of the lines above it; the last line says whether the TV is
ready, which follows from them; and the exit status is zero on a TV that has all that the
script asks for, and only there. -/
theorem diagnose_verdict :
    Counted (diagnose tv).1 ∧ summaryLine (diagnose tv).1 ∈ (diagnose tv).1.said ∧
      (diagnose tv).1.said.getLast? = some (verdictLine tv (diagnose tv).1) ∧
      (verdictLine tv (diagnose tv).1 = notReadyLine ↔ ¬ Ready tv) ∧
      (verdictLine tv (diagnose tv).1 = mostlyReadyLine ↔
        Ready tv ∧ (diagnose tv).1.warned ≠ 0) ∧
      (verdictLine tv (diagnose tv).1 = readyLine tv ↔ Ready tv ∧ (diagnose tv).1.warned = 0) ∧
      ((diagnose tv).1.failed = 0 ↔ Ready tv) ∧ ((diagnose tv).2 = 0 ↔ Ready tv) ∧
      ((diagnose tv).2 = 1 ↔ ¬ Ready tv) := by
  obtain ⟨hkept, hsays, hlast⟩ := summary_spec tv (checked tv)
  obtain ⟨hnot, hmostly, hready⟩ := verdictLine_spec tv (diagnose tv).1
  have hchecked := judged_checked tv
  have hfailed : (checked tv).failed = 0 ↔ Ready tv := hchecked.failed
  have hstatus : (diagnose tv).2 = if 0 < (checked tv).failed then 1 else 0 := rfl
  have hcount : (diagnose tv).1.failed = 0 ↔ Ready tv := by
    rw [← hfailed]
    exact Eq.congr_left hkept
  refine ⟨?_, hsays, hlast, ?_, ?_, ?_, hcount, ?_, ?_⟩
  · exact (judged_summary tv _).counted (hchecked.counted counted_blankReport)
  · exact hnot.trans (not_congr hcount)
  · exact hmostly.trans (and_congr_left fun _ => hcount)
  · exact hready.trans (and_congr_left fun _ => hcount)
  · rw [hstatus, ← hfailed]
    split <;> omega
  · rw [hstatus, ← hfailed]
    split <;> omega

end Requirements

end TizenRoblox.Diagnose
