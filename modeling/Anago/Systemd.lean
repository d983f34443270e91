import Anago.UnixPath
import Anago.StdText
import Anago.SectionText

/-!
# The systemd units

The hub's unit and the sync timer's service. Both are text made of the paths they name, and
a path that no unit can name is refused before anything is written.
-/

open StdText

namespace Systemd

/-- A path no unit file can name. -/
inductive Unusable where
  | noDirectory (path : UnixPath)
  | notBindable (path : UnixPath)
  | notPrintable (path : UnixPath)
  | notText (path : UnixPath)
  deriving DecidableEq, Repr

def needsQuotes (c : Char) : Bool := isWhitespace c || c == '"' || c == '\\'

/-- Renders a path the way systemd reads one. -/
def escape (path : UnixPath) : Except Unusable String :=
  match path.toStr with
  | none => .error (.notText path)
  | some text =>
    if text.toList.any isControl then .error (.notPrintable path)
    else
      let text := replace '%' "%%" text
      if text.toList.any needsQuotes then
        .ok ("\"" ++ replace '"' "\\\"" (replace '\\' "\\\\" text) ++ "\"")
      else .ok text

/-- Renders a path for a list of binds. -/
def bind (path : UnixPath) : Except Unusable String := do
  let text ← escape path
  if text.toList.contains ':' then .error (.notBindable path) else .ok text

/-- The directory a unit has to be able to write, given a file inside it. The directory of a
relative path is relative as well. -/
def writableDir (file : UnixPath) : Except Unusable UnixPath :=
  if file.isAbsolute then
    match file.parent with
    | some dir => if dir = [UnixPath.separator] then .error (.noDirectory file) else .ok dir
    | none => .error (.noDirectory file)
  else .error (.noDirectory file)

def unitLines (exec stateDir wgDir tlsCert tlsKey : String) : List String :=
  ["[Unit]",
    "Description=anago — self-hosted WireGuard private network",
    "Documentation=https://github.com/elpalaiso/anago",
    "# The hub is useless before the network is up, and it dials nothing at",
    "# start, so `network-online` is the honest dependency.",
    "After=network-online.target",
    "Wants=network-online.target",
    "",
    "[Service]",
    "Type=exec",
    "# The leading `:` turns off $-expansion for this command line. A path",
    "# may legally hold a dollar sign, and without the prefix `$\x7bX\x7d` would",
    "# be replaced — with nothing at all, if X is unset — so the unit would",
    "# start a different binary or read a different certificate than the one",
    "# `server init` was given.",
    "ExecStart=:" ++ exec ++ " server run",
    "Restart=on-failure",
    "RestartSec=5s",
    "# A control plane that cannot answer is worse than one that restarts.",
    "NoNewPrivileges=yes",
    "# tmpfs, not yes: an empty home the binds below can mount into.",
    "ProtectHome=tmpfs",
    "ProtectSystem=strict",
    "ReadWritePaths=" ++ stateDir ++ " " ++ wgDir,
    "# Reachable even though the sandbox hides where they live.",
    "BindReadOnlyPaths=" ++ exec ++ " " ++ tlsCert ++ " " ++ tlsKey,
    "PrivateTmp=yes",
    "",
    "[Install]",
    "WantedBy=multi-user.target"]

/-- The text of some lines. -/
def unlines (lines : List String) : String :=
  String.ofList (SectionText.unlines (lines.map String.toList))

/-- The hub's unit. -/
def unitText (exec stateDir wgDir tlsCert tlsKey : UnixPath) : Except Unusable String := do
  let exec ← bind exec
  let stateDir ← escape stateDir
  let wgDir ← escape wgDir
  let tlsCert ← bind tlsCert
  let tlsKey ← bind tlsKey
  .ok (unlines (unitLines exec stateDir wgDir tlsCert tlsKey))

def syncServiceLines (exec deviceFile configDir wgDir : String) : List String :=
  ["[Unit]",
    "Description=anago — pull the peer list from the hub",
    "Documentation=https://github.com/elpalaiso/anago",
    "# No network dependency on purpose. A hub this device cannot reach is",
    "# an ordinary silent exit 0 (§6.3) — the laptop is out of the house and",
    "# that is fine — so ordering after `network-online.target` would buy",
    "# nothing that the next tick does not already carry.",
    "",
    "[Service]",
    "Type=oneshot",
    "# The leading `:` turns off $-expansion for this command line. A path",
    "# may legally hold a dollar sign, and `$\x7bX\x7d` in a command line would be",
    "# replaced — with nothing at all, if X is unset. The path lists below",
    "# expand no such thing, so without the prefix this line and BindPaths=",
    "# could name two different directories from the same `--config`: the",
    "# sandbox would open one and the run would read the other.",
    "ExecStart=:" ++ exec ++ " sync --quiet --config " ++ deviceFile,
    "# No Restart=. The timer is the retry policy, and it already knows how",
    "# often. A run that ended in 401 restarted on failure would hammer the",
    "# hub for a device it has removed.",
    "#",
    "# TimeoutStartSec= is not optional here: systemd disables the start",
    "# timeout entirely for Type=oneshot. A wedged run holds the sync lock,",
    "# and §6.3 has every later run exit quietly on that lock — so without a",
    "# bound the timer would go silent and look healthy. The client's own",
    "# limits are 10s to connect and 30s to read; this sits above them.",
    "TimeoutStartSec=2min",
    "NoNewPrivileges=yes",
    "ProtectSystem=strict",
    "# tmpfs, not yes: the device file usually lives under a home directory,",
    "# which `yes` would make inaccessible — and systemd will not mount a",
    "# bind underneath an inaccessible directory.",
    "ProtectHome=tmpfs",
    "# Read-write, and a bind rather than an exception, because this run",
    "# rewrites `device.json` and takes the sync lock beside it. A bind also",
    "# works when that directory is not under a home at all, so there is one",
    "# rule here instead of two.",
    "BindPaths=" ++ configDir,
    "# /etc is not hidden, so an exception is enough for the WireGuard",
    "# directory — the config, and the stripped copy written next to it.",
    "ReadWritePaths=" ++ wgDir,
    "BindReadOnlyPaths=" ++ exec,
    "PrivateTmp=yes",
    "# No [Install] section. This unit is what the timer starts; enabling it",
    "# would run one sync at boot and never another."]

/-- The service the sync timer starts. -/
def syncServiceText (exec deviceFile wgConfig : UnixPath) : Except Unusable String := do
  let configDir ← writableDir deviceFile
  let wgDir ← writableDir wgConfig
  let exec ← bind exec
  let deviceFile ← escape deviceFile
  let configDir ← bind configDir
  let wgDir ← escape wgDir
  .ok (unlines (syncServiceLines exec deviceFile configDir wgDir))

end Systemd
