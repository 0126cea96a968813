import TizenRoblox.Foundation.Bytes
import TizenRoblox.Foundation.Runs
import TizenRoblox.Foundation.Ownership
import TizenRoblox.Foundation.Heap
import TizenRoblox.Foundation.Interfaces
import TizenRoblox.Foundation.Archive
import TizenRoblox.Posix.Pathname
import TizenRoblox.Posix.Tree
import TizenRoblox.Posix.Directories
import TizenRoblox.Posix.Links
import TizenRoblox.Posix.Subtree
import TizenRoblox.Posix.Copying
import TizenRoblox.Posix.Plan
import TizenRoblox.Shell.Command
import TizenRoblox.Shell.Logic
import TizenRoblox.Shell.Copies
import TizenRoblox.Shell.Traps
import TizenRoblox.Shell.Text
import TizenRoblox.Shell.Glob
import TizenRoblox.Shell.Regex
import TizenRoblox.Shell.Numbers
import TizenRoblox.Launcher.State
import TizenRoblox.Launcher.Libraries
import TizenRoblox.Launcher.Linking
import TizenRoblox.Launcher.Resolution
import TizenRoblox.Launcher.Recovery
import TizenRoblox.Launcher.RestartLimit
import TizenRoblox.Launcher.Script
import TizenRoblox.Launcher.Environment
import TizenRoblox.Launcher.Reaching
import TizenRoblox.Launcher.Arguments
import TizenRoblox.Launcher.Signals
import TizenRoblox.Launcher.Stopping
import TizenRoblox.Launcher.Ownership
import TizenRoblox.Launcher.Teardown
import TizenRoblox.Launcher.Passes
import TizenRoblox.Launcher.SingleInstance
import TizenRoblox.Launcher.Instance
import TizenRoblox.InputMapper.KeyMap
import TizenRoblox.InputMapper.Remote
import TizenRoblox.InputMapper.EventLoop
import TizenRoblox.InputMapper.Devices
import TizenRoblox.InputMapper.Discovery
import TizenRoblox.InputMapper.Gamepads
import TizenRoblox.InputMapper.Rescan
import TizenRoblox.InputMapper.Waking
import TizenRoblox.InputMapper.Accounting
import TizenRoblox.InputMapper.Uinput
import TizenRoblox.InputMapper.Delivery
import TizenRoblox.InputMapper.Writing
import TizenRoblox.Credentials.Libsecret
import TizenRoblox.Credentials.Setup
import TizenRoblox.Credentials.Agreement
import TizenRoblox.Credentials.SecretValue
import TizenRoblox.Credentials.Blocks
import TizenRoblox.Credentials.Sessions
import TizenRoblox.Credentials.Permissions
import TizenRoblox.Credentials.Touching
import TizenRoblox.Deploy.Soname
import TizenRoblox.Deploy.Script
import TizenRoblox.Deploy.Entries
import TizenRoblox.Deploy.Layout
import TizenRoblox.Deploy.Preparation
import TizenRoblox.Deploy.Deployment
import TizenRoblox.Deploy.History
import TizenRoblox.Stubs.Gstreamer
import TizenRoblox.Stubs.Libdecor
import TizenRoblox.Stubs.Dbus
import TizenRoblox.Diagnose.Libraries
import TizenRoblox.Diagnose.Glibc
import TizenRoblox.Diagnose.Script
import TizenRoblox.Diagnose.Launching
import TizenRoblox.Release.Workplace
import TizenRoblox.Release.Extraction
import TizenRoblox.Release.Build
import TizenRoblox.Release.History
import TizenRoblox.Deploy.Releases
import TizenRoblox.Packaging.Script
import TizenRoblox.Packaging.Staging
import TizenRoblox.Packaging.History
import TizenRoblox.Packaging.Parts
import TizenRoblox.Packaging.Releases
import TizenRoblox.ThirdParty.Sources
import TizenRoblox.ThirdParty.History
