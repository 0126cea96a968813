/-
# The launcher script

`launch.sh` from its first command to its last, as a sequence of stages: what it
does before the libraries are resolved, the resolution, and what it does up to
the recovery loop that starts Sober. The script runs under `set -e`; once its
trap is installed, `cleanup` runs when it exits, whatever ended it.

The directory the launcher serves is detected once, so every stage takes it as a
parameter. Pauses, file modes and the time stamps of log lines are left out.
-/

import TizenRoblox.Launcher.Recovery
import TizenRoblox.Launcher.Resolution

namespace TizenRoblox.Launcher

open TizenRoblox.Foundation TizenRoblox.Posix TizenRoblox.Shell TizenRoblox.Shell.Command

/-! ## Where the launcher works -/

/-- The sandbox of an installed package. -/
def tpkDir : Bytes := bytes "/opt/usr/apps/org.tizenroblox.app"

/-- The directory of a manual installation. -/
def manualDir : Bytes := bytes "/opt/tizenroblox"

/-- The detection of `INSTALL_DIR`: the environment, the package, the default. -/
def detectInstallDir (world : World) (state : State) : Bytes :=
  if state.get "TIZENROBLOX_DIR" ≠ [] then state.get "TIZENROBLOX_DIR"
  else if state.tree.isDirectory world.cwd (.ofBytes tpkDir) then tpkDir
  else manualDir

def pidFile : Bytes := bytes "/tmp/tizenroblox.pid"

def inputPidFile : Bytes := bytes "/tmp/tizenroblox_input.pid"

section Paths

variable (installDir : Bytes)

def soberBin : Bytes := installDir ++ bytes "/bin/sober"

def inputMapperBin : Bytes := installDir ++ bytes "/bin/input_mapper"

def libDirOf : Bytes := installDir ++ bytes "/lib"

def logFile : Bytes := installDir ++ bytes "/logs/tizenroblox.log"

def soberHome : Bytes := installDir ++ bytes "/data"

end Paths

section Stages

variable (world : World) (installDir : Bytes)

/-! ## Before the libraries are resolved -/

/-- The size above which the log is rotated. -/
def logLimit : ℕ := 10485760

/-- `stat -c%s`: a link has a size of its own, which never reaches the limit. -/
def logSize (state : State) : ℕ :=
  match state.tree.lstat world.cwd (.ofBytes (logFile installDir)) with
  | some (.file data) => data.length
  | _ => 0

/-- Opens the log, after moving a long one away. -/
def logging : Command State := .block [
  mkdirP world (installDir ++ bytes "/logs"),
  .ifThen (.andThen (testF world (logFile installDir))
      (.test fun state => logLimit < logSize world installDir state)) <|
    .orTrue (mvF world (logFile installDir) (logFile installDir ++ bytes ".old")),
  appendTo world (logFile installDir),
  echo world (bytes "TizenRoblox starting...")]

def elfInterpreterPath : Bytes := bytes "/lib/ld-linux-aarch64.so.1"

/-- Links the ELF interpreter where the kernel looks for it. -/
def elfInterpreter : Command State :=
  .ifThen (.andThen (.negate (testF world elfInterpreterPath))
      (.negate (testL world elfInterpreterPath))) <|
    .forEach [
        bytes "/lib/aarch64-linux-gnu/ld-linux-aarch64.so.1",
        bytes "/usr/lib/ld-linux-aarch64.so.1",
        bytes "/usr/lib64/ld-linux-aarch64.so.1"] fun interp =>
      .ifThen (testF world interp) <| .block [
        echo world
          (bytes "[launch] Symlinking ELF interpreter /lib/ld-linux-aarch64.so.1 → " ++ interp),
        mkdirP world (bytes "/lib"),
        .orElse (lnSf world interp elfInterpreterPath) <|
          echo world (bytes
            "[launch] WARNING: could not create ELF interpreter symlink (need root)"),
        .brk 1]

/-- Without Sober there is nothing to launch. -/
def soberCheck : Command State :=
  .ifThen (.negate (testF world (soberBin installDir))) <| .block [
    echo world (bytes "ERROR: sober binary not found at " ++ soberBin installDir),
    .exit 1]

/-- `NAME=$(cat file)` -/
def catInto (name : String) (file : Bytes) : Command State := .attempt fun state =>
  (state.tree.contents world.cwd (.ofBytes file)).map fun data =>
    state.setVariable name (commandSubstitution data)

/-- A launcher that is running stops this one; its stale file is removed. -/
def instanceCheck : Command State :=
  .ifThen (testF world pidFile) <| .block [
    catInto world "OLD_PID" pidFile,
    .ifThen (.test fun state => world.alive (state.get "OLD_PID")) <| .block [
      say world fun state =>
        bytes "TizenRoblox already running (PID " ++ state.get "OLD_PID" ++ bytes ")",
      .exit 0],
    rmF world pidFile]

def defaultRuntimeDir : Bytes := bytes "/run/user/5000"

/-- Searches the directories of the compositor for its socket. -/
def waylandSearch : Command State := .forEach [bytes "wayland-0", bytes "wayland-1"] fun socket =>
  fun strict state =>
    forEach [bytes "/run/display", bytes "/tmp/.RTE", bytes "/run/enlightenment",
        bytes "/run/user/5000", bytes "/run/user/0",
        state.getOr "XDG_RUNTIME_DIR" defaultRuntimeDir] (fun dir =>
      .ifThen (fileTest world Tree.isSocket (dir ++ slash :: socket)) <| .block [
        assign "WAYLAND_DISPLAY" fun _ => socket,
        assign "XDG_RUNTIME_DIR" fun _ => dir,
        .brk 2]) strict state

def waylandEnvironment : Command State := .block [
  .ifThen (.test fun state => state.get "WAYLAND_DISPLAY" = []) (waylandSearch world),
  .ifThen (.test fun state => state.get "WAYLAND_DISPLAY" = []) <| .block [
    echo world (bytes "WARNING: No Wayland display socket found — trying wayland-0 anyway"),
    assign "WAYLAND_DISPLAY" fun _ => bytes "wayland-0"],
  assign "XDG_RUNTIME_DIR" fun state => state.getOr "XDG_RUNTIME_DIR" defaultRuntimeDir,
  say world fun state => bytes "[launch] WAYLAND_DISPLAY=" ++ state.get "WAYLAND_DISPLAY",
  say world fun state => bytes "[launch] XDG_RUNTIME_DIR=" ++ state.get "XDG_RUNTIME_DIR"]

/-- Sober's home is the data directory of the installation. -/
def homeDirectories : Command State := .block [
  mkdirP world (soberHome installDir ++ bytes "/.local/share/sober"),
  mkdirP world (soberHome installDir ++ bytes "/.config/sober"),
  mkdirP world (soberHome installDir ++ bytes "/.cache/sober"),
  assign "HOME" fun _ => soberHome installDir,
  assign "XDG_DATA_HOME" fun _ => soberHome installDir ++ bytes "/.local/share",
  assign "XDG_CONFIG_HOME" fun _ => soberHome installDir ++ bytes "/.config",
  assign "XDG_CACHE_HOME" fun _ => soberHome installDir ++ bytes "/.cache"]

/-! ## After the libraries are resolved -/

def shaderCache : Bytes := soberHome installDir ++ bytes "/.cache/sober/gl_shaders"

def graphicsEnvironment : Command State := .block [
  assign "EGL_PLATFORM" fun _ => bytes "wayland",
  assign "LIBGL_DEBUG" fun _ => [],
  assign "EGL_LOG_LEVEL" fun _ => bytes "fatal",
  assign "MESA_SHADER_CACHE_DISABLE" fun _ => bytes "false",
  assign "__GL_SHADER_DISK_CACHE" fun _ => bytes "1",
  assign "__GL_SHADER_DISK_CACHE_PATH" fun _ => shaderCache installDir,
  mkdirP world (shaderCache installDir),
  assign "SDL_VIDEODRIVER" fun _ => bytes "wayland",
  assign "SDL_AUDIODRIVER" fun state => state.getOr "SDL_AUDIODRIVER" (bytes "alsa")]

/-- The performance governor and the cpuset of the foreground, where they exist. -/
def cpuPerformance : Command State := .block [
  .forEach world.governors fun cpuGov => .orTrue (writeTo world cpuGov (bytes "performance\n")),
  .ifThen (fileTest world Tree.isDirectory (bytes "/dev/cpuset/foreground")) <|
    .orTrue (writeTo world (bytes "/dev/cpuset/foreground/tasks") (world.pid ++ [newline])),
  assign "MIMALLOC_LARGE_OS_PAGES" fun _ => bytes "1",
  assign "MIMALLOC_PAGE_RESET" fun _ => bytes "0",
  assign "SDL_HINT_RENDER_VSYNC" fun _ => bytes "1",
  assign "SDL_HINT_THREAD_PRIORITY_POLICY" fun _ => bytes "2"]

def soberEnvironment : Command State := .block [
  assign "SOBER_DISPLAY_MODE" fun _ => bytes "fullscreen",
  assign "SOBER_DISABLE_SERVICES" fun _ => bytes "1",
  assign "SOBER_SKIP_UPDATE_CHECK" fun _ => bytes "1",
  assign "SOBER_DATA_DIR" fun _ => soberHome installDir ++ bytes "/.local/share/sober"]

/-- `eval $(dbus-launch --sh-syntax)` -/
def evalDbusLaunch : Command State := .act fun state =>
  match world.dbusLaunch with
  | none => state
  | some (address, pid) =>
      (state.setVariable "DBUS_SESSION_BUS_ADDRESS" address).setVariable
        "DBUS_SESSION_BUS_PID" pid

def dbusSession : Command State :=
  .ifThen (.test fun state => state.get "DBUS_SESSION_BUS_ADDRESS" = []) <|
    .ifThen (.test fun _ => world.dbusLaunch.isSome) <| .orTrue (evalDbusLaunch world)

def uinputDevice : Bytes := bytes "/dev/uinput"

/-- `modprobe uinput` -/
def modprobeUinput : Command State := .simple fun state =>
  if world.modprobeOk then
    (state.setTree (state.tree.set (Pathname.partsOf uinputDevice) .charDevice), 0)
  else (state, 1)

def uinputModule : Command State :=
  .ifThen (.negate (fileTest world Tree.isCharDevice uinputDevice)) <| .block [
    .orTrue (modprobeUinput world),
    .ifElse (.negate (fileTest world Tree.isCharDevice uinputDevice))
      (.block [
        echo world (bytes "[launch] WARNING: /dev/uinput not available — virtual gamepad disabled"),
        echo world (bytes
          "[launch]   Try: modprobe uinput (or enable CONFIG_INPUT_UINPUT in kernel)")])
      (echo world (bytes "[launch] uinput module loaded"))]

/-- `trap cleanup EXIT INT TERM` -/
def installTrap : Command State := .act fun state => { state with trapped := true }

def startInputMapper : Command State :=
  .ifElse (testF world (inputMapperBin installDir))
    (.block [
      echo world (bytes "[launch] Starting Samsung TV input mapper..."),
      .act (State.record .startedMapper),
      assign "INPUT_MAPPER_PID" fun _ => world.mapperPid,
      writeTo world inputPidFile (world.mapperPid ++ [newline]),
      echo world (bytes "[launch] Input mapper PID: " ++ world.mapperPid)])
    (echo world (bytes "WARNING: input_mapper not found at " ++ inputMapperBin installDir ++
      bytes " — gamepad won't work"))

def announce : Command State := .block [
  writeTo world pidFile (world.pid ++ [newline]),
  echo world (bytes "[launch] Launching Sober runtime..."),
  echo world (bytes "[launch] Binary: " ++ soberBin installDir)]

/-! ## The whole script -/

/-- What the script does before it looks for Sober. -/
def opening : Command State := .seq (logging world installDir) (elfInterpreter world)

/-- What the script does before the libraries are resolved. -/
def preparation : Command State := .block [
  opening world installDir,
  soberCheck world installDir,
  instanceCheck world,
  waylandEnvironment world,
  homeDirectories world installDir]

/-- What the script does between the resolution and the recovery loop. -/
def completion : Command State := .block [
  graphicsEnvironment world installDir,
  cpuPerformance world,
  soberEnvironment installDir,
  dbusSession world,
  uinputModule world,
  installTrap,
  startInputMapper world installDir,
  announce world installDir]

def launchBody : Command State := .block [
  preparation world installDir,
  resolveLibraries world installDir (libDirOf installDir),
  completion world installDir,
  crashRecovery world (soberBin installDir) world.arguments]

/-- The line with which `cleanup` starts, and the one with which it ends. -/
def shuttingDownLine : Bytes := bytes "[launch] Shutting down TizenRoblox..."

def stoppedLine : Bytes := bytes "TizenRoblox stopped."

/-- Ends the input mapper and the session bus and removes the files that name
them. -/
def cleanup : Command State := .block [
  echo world shuttingDownLine,
  .ifThen (testF world inputPidFile) <| .block [
    catInto world "INPUT_PID" inputPidFile,
    .orTrue (kill world fun state => state.get "INPUT_PID"),
    rmF world inputPidFile],
  rmF world pidFile,
  .ifThen (.test fun state => state.get "DBUS_SESSION_BUS_PID" ≠ []) <|
    .orTrue (kill world fun state => state.get "DBUS_SESSION_BUS_PID"),
  echo world stoppedLine]

end Stages

/-- A run of the script that no signal interrupts. While Sober runs on the script
waits; otherwise it exits, through its trap once that is installed. -/
def launch (world : World) (state : State) : State :=
  match launchBody world (detectInstallDir world state) true state with
  | .blocked last => last
  | outcome =>
      if outcome.state.trapped then (cleanup world true outcome.state).state
      else outcome.state

end TizenRoblox.Launcher
