import Abora.Lib.Run
import Abora.Lib.Lists
import Abora.Lib.Machine
import Abora.Lib.Path
import Abora.Lib.Commit
import Abora.Lib.Codec
import Abora.Lib.Replace
import Abora.Update.Types
import Abora.Update.AptOutput
import Abora.Update.Apply
import Abora.Update.Store
import Abora.Update.Save
import Abora.Config.Config
import Abora.Config.Schedule
import Abora.Helper.Process
import Abora.Helper.Run
import Abora.Daemon.Tokens
import Abora.Daemon.Auth
import Abora.Daemon.Reload
import Abora.Update.Host
import Abora.Daemon.State
import Abora.Daemon.Requests
import Abora.Protocol.Paths
import Abora.Protocol.Race
import Abora.Protocol.Stale
import Abora.Protocol.Handover
import Abora.Daemon.Access
import Abora.Daemon.Swap
import Abora.Daemon.Signals
import Abora.Daemon.Watch
import Abora.Daemon.Checks
import Abora.Daemon.Ledger
import Abora.Daemon.Plan
import Abora.Daemon.Ingest
import Abora.Daemon.Scheduler
import Abora.Lib.Json
import Abora.Update.Decode
import Abora.Protocol.Newer
import Abora.Config.Durations
import Abora.Config.Report
import Abora.Daemon.Reboot
import Abora.Daemon.TokenFile
import Abora.Helper.Deadline
import Abora.Cli.Confirm
import Abora.Cli.Endpoints
import Abora.Lib.Utf8
import Abora.Update.Runner
import Abora.Protocol.Upgraded
import Abora.Lib.FileTree
import Abora.Update.Inspect
import Abora.Lib.Inodes
import Abora.Update.Atomic
import Abora.Protocol.Damage
import Abora.Daemon.Notices
import Abora.Daemon.Order
import Abora.Cli.Issue
import Abora.Lib.Toml
import Abora.Lib.TomlDocument
import Abora.Cli.TokenBlock
import Abora.Lib.Decimal
import Abora.Lib.Calendar
import Abora.Lib.Nix
import Abora.Lib.Paint
import Abora.Update.Tail
import Abora.Update.Version
import Abora.Daemon.Pages
import Abora.SysInfo.OsRelease
import Abora.Log.Timestamp
import Abora.Log.Logger
import Abora.Log.Lines
import Abora.Log.Members
import Abora.Installer.Settings
import Abora.Installer.Install
import Abora.Boot.Logo
import Abora.Boot.Font
import Abora.Boot.Canvas
import Abora.Boot.Screen
import Abora.Lib.Endian
import Abora.Lib.Predict
import Abora.Boot.Png
import Abora.Protocol.Host
import Abora.Protocol.Provenance
import Abora.Boot.Loop
import Abora.Update.Encode
import Abora.Lib.Words
import Abora.Services.Systemd
import Abora.SysInfo.Proc
import Abora.Daemon.Wire
import Abora.Cli.Show
import Abora.Installer.Disk
import Abora.Daemon.Restart
import Abora.Daemon.Timely
import Abora.Iso.Init
