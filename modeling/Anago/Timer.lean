import Anago.ClockTimes
import Anago.Cli
import Anago.CommandLine
import Anago.Crontab
import Anago.Launchd
import Anago.Utf8Lossy

/-!
# Installing and removing the periodic sync

What schedules things on a machine, which files that takes, the steps that install it, and
the steps that take a failed install back. All of it is settled before anything is written.
-/

open StdText DecimalText RenewalLoop

namespace Cli

open Args

def defaultInterval : Duration := .ofSecs (5 * 60)

def minInterval : Duration := .ofSecs 60

def maxInterval : Duration := .ofSecs (24 * 60 * 60)

/-- `str::strip_suffix`, of one character. -/
def stripSuffix (c : Char) (cs : List Char) : Option (List Char) :=
  if cs.getLast? = some c then some cs.dropLast else none

/-- The units of `--interval`, in seconds. -/
def units : List (Char × Nat) := [('s', 1), ('m', 60), ('h', 60 * 60)]

def u64Max : Nat := 18446744073709551615

/-- `str::parse::<u64>`. -/
def parseU64 (cs : List Char) : Option Nat :=
  (parseUnsigned cs).bind fun n => if n ≤ u64Max then some n else none

variable [Unicode]

/-- `--interval 5m`. -/
def interval (parsed : ParsedArgs) : Except CliError Duration :=
  match parsed.value "interval" with
  | none => .ok defaultInterval
  | some text =>
    let bad (message : String) : Except CliError Duration :=
      .error (.badValue "interval" (debugStr text ++ message))
    match units.findSome? fun unit => (stripSuffix unit.1 text.toList).map fun digits =>
      (digits, unit.2) with
    | none => bad " has no unit — write it as 90s, 5m or 1h"
    | some (digits, seconds) =>
      match parseU64 digits with
      | none => bad " is not a length of time — try 5m"
      | some count =>
        let interval := Duration.ofSecs (min (count * seconds) u64Max)
        if interval < minInterval then
          bad (" is shorter than a minute. Most changes ask nothing of a device, " ++
            "so syncing that often only polls the hub")
        else if maxInterval < interval then
          bad (" is longer than a day, which is not a timer any more — the peer " ++
            "list would be a day stale")
        else .ok interval

end Cli

namespace Systemd

def syncService : String := "anago-sync.service"

def syncTimer : String := "anago-sync.timer"

def show' (n : Nat) : String := String.ofList (showNat n)

/-- A period, spelled so systemd cannot read it as something else. -/
def span (interval : Duration) : String :=
  let seconds := interval.asSecs
  if seconds = 0 then "0s"
  else if seconds % 3600 = 0 then show' (seconds / 3600) ++ "h"
  else if seconds % 60 = 0 then show' (seconds / 60) ++ "min"
  else show' seconds ++ "s"

def syncTimerLines (every : String) : List String :=
  ["[Unit]",
    "Description=anago — sync the peer list every " ++ every,
    "Documentation=https://github.com/elpalaiso/anago",
    "",
    "[Timer]",
    "OnBootSec=" ++ every,
    "OnUnitActiveSec=" ++ every,
    "Unit=" ++ syncService,
    "# No Persistent=. It applies to calendar timers, not to this kind, and",
    "# a laptop that was asleep has nothing to catch up on anyway: the next",
    "# run carries everything the missed one would have (§6.3).",
    "",
    "[Install]",
    "WantedBy=timers.target"]

/-- The timer that starts the service. -/
def syncTimerText (interval : Duration) : String := unlines (syncTimerLines (span interval))

end Systemd

/-- `PathBuf::join`. -/
def UnixPath.join (dir : UnixPath) (name : UnixPath) : UnixPath :=
  if name.isAbsolute then name
  else if dir.getLast?.all (· == separator) then dir ++ name
  else dir ++ separator :: name

/-- `Path::display`. -/
def UnixPath.display (path : UnixPath) : String := String.ofList (Utf8Lossy.lossy path)

namespace Timer

/-- A command and its arguments, as they are run and as they are shown. -/
structure Cmd where
  program : String
  args : List String
  deriving DecidableEq, Repr

namespace Cmd

/-- The last argument is a path. -/
def withPath (program : String) (args : List String) (path : UnixPath) : Cmd :=
  ⟨program, args ++ [path.display]⟩

/-- The line as a person would type it. -/
def display (cmd : Cmd) : String := cmd.args.foldl (fun line arg => line ++ " " ++ arg) cmd.program

end Cmd

def systemctl : String := "systemctl"

def daemonReload : Cmd := ⟨systemctl, ["daemon-reload"]⟩

def enableSyncTimer : Cmd := ⟨systemctl, ["enable", "--now", Systemd.syncTimer]⟩

def disableSyncTimer : Cmd := ⟨systemctl, ["disable", "--now", Systemd.syncTimer]⟩

def isActiveSyncTimer : Cmd := ⟨systemctl, ["is-active", Systemd.syncTimer]⟩

def launchctl : String := "launchctl"

/-- What `launchctl` addresses the daemon by. -/
def target : String := Launchd.domain ++ "/" ++ Launchd.label

def bootstrap (plist : UnixPath) : Cmd := Cmd.withPath launchctl ["bootstrap", Launchd.domain] plist

def bootout : Cmd := ⟨launchctl, ["bootout", target]⟩

def print : Cmd := ⟨launchctl, ["print", target]⟩

inductive Scheduler where
  | systemd
  | launchd
  | neither
  deriving DecidableEq, Repr

/-- What the install needs to know. -/
structure Setup where
  exec : UnixPath
  deviceFile : UnixPath
  wgConfig : UnixPath
  interval : Duration
  unitDir : UnixPath
  daemonDir : UnixPath

/-- A file the install is going to write. -/
structure Written where
  path : UnixPath
  text : String
  deriving DecidableEq, Repr

inductive Plan where
  | systemd (service timer : Written)
  | launchd (plist : Written)
  | byHand (line : String)
  deriving DecidableEq, Repr

/-- What is already on the machine. -/
structure Existing where
  joined : Bool
  schedule : List UnixPath

/-- Why the schedule could not be installed or removed. -/
inductive TimerError where
  | notJoined (deviceFile : UnixPath)
  | alreadyInstalled (files : List UnixPath)
  /-- The install failed, and so did putting the machine back. -/
  | halfUndone (cause : TimerError) (left : String)
  /-- The files are gone and the schedule was not confirmed stopped. -/
  | notStopped (why : TimerError) (confirmed : Bool) (check : String)
  | unit (e : Systemd.Unusable)
  | plist (e : Launchd.Unrepresentable)
  | notCron (interval : Duration)
  | line (e : Crontab.TimerError)
  /-- With the file it was about, unless it was only looked for. -/
  | io (what source : String) (target : Option UnixPath)
  | spawn (line source : String)
  | failed (line stderr : String)
  deriving DecidableEq, Repr

/-- The five fields of a crontab line, for a period. -/
def cronSchedule (interval : Duration) : Option String :=
  let seconds := interval.asSecs
  if seconds = 0 ∨ ¬60 ∣ seconds then none
  else
    let minutes := seconds / 60
    if minutes = 1 then some "* * * * *"
    else if minutes < 60 then
      if minutes ∣ 60 then some ("*/" ++ Systemd.show' minutes ++ " * * * *") else none
    else if ¬60 ∣ minutes then none
    else
      let hours := minutes / 60
      if hours = 1 then some "0 * * * *"
      else if hours = 24 then some "0 0 * * *"
      else if hours < 24 ∧ hours ∣ 24 then some ("0 */" ++ Systemd.show' hours ++ " * * *")
      else none

/-- A whole crontab line. -/
def crontabLine (exec deviceFile : UnixPath) (interval : Duration) : Except TimerError String :=
  match cronSchedule interval with
  | none => .error (.notCron interval)
  | some schedule =>
    match Crontab.crontabCommand exec deviceFile with
    | .error e => .error (.line e)
    | .ok command => .ok (schedule ++ " " ++ command)

def unitPath (dir : UnixPath) (name : String) : UnixPath := dir.join (Utf8Text.utf8 name.toList)

def plistPath (dir : UnixPath) : UnixPath :=
  dir.join (Utf8Text.utf8 (Launchd.label ++ ".plist").toList)

/-- Decides the whole install. A device that has not joined comes first, and a schedule is
never replaced in place. -/
def plan (machine : Scheduler) (existing : Existing) (setup : Setup) : Except TimerError Plan :=
  if !existing.joined then .error (.notJoined setup.deviceFile)
  else if existing.schedule ≠ [] then .error (.alreadyInstalled existing.schedule)
  else
    match machine with
    | .systemd =>
      match Systemd.syncServiceText setup.exec setup.deviceFile setup.wgConfig with
      | .error e => .error (.unit e)
      | .ok text =>
        .ok (.systemd ⟨unitPath setup.unitDir Systemd.syncService, text⟩
          ⟨unitPath setup.unitDir Systemd.syncTimer, Systemd.syncTimerText setup.interval⟩)
    | .launchd =>
      match Launchd.syncPlist setup.exec setup.deviceFile setup.interval with
      | .error e => .error (.plist e)
      | .ok text => .ok (.launchd ⟨plistPath setup.daemonDir, text⟩)
    | .neither => (crontabLine setup.exec setup.deviceFile setup.interval).map .byHand

inductive Removal where
  | systemd (service timer : UnixPath)
  | launchd (plist : UnixPath)
  | neither

namespace Removal

def scheduler : Removal → Scheduler
  | systemd _ _ => .systemd
  | launchd _ => .launchd
  | neither => .neither

/-- What is taken away, and what an install must not find. -/
def files : Removal → List UnixPath
  | systemd service timer => [service, timer]
  | launchd plist => [plist]
  | neither => []

end Removal

def removal (machine : Scheduler) (unitDir daemonDir : UnixPath) : Removal :=
  match machine with
  | .systemd => .systemd (unitPath unitDir Systemd.syncService) (unitPath unitDir Systemd.syncTimer)
  | .launchd => .launchd (plistPath daemonDir)
  | .neither => .neither

inductive Step where
  | write (file : Written)
  | delete (path : UnixPath)
  | run (cmd : Cmd)
  deriving DecidableEq, Repr

/-- The step as a person would say it. -/
def Step.describe : Step → String
  | write file => "write " ++ file.path.display
  | delete path => "remove " ++ path.display
  | run cmd => "run `" ++ cmd.display ++ "`"

/-- Everything the install does, in order. -/
def steps : Plan → List Step
  | .systemd service timer =>
    [.write service, .write timer, .run daemonReload, .run enableSyncTimer]
  | .launchd plist => [.write plist, .run (bootstrap plist.path)]
  | .byHand _ => []

/-- How to put the machine back when the step at `failed` did not work. -/
def rewind (plan : Plan) (failed : Nat) : List Step :=
  match plan with
  | .systemd service timer =>
    (if 3 ≤ failed then [.run disableSyncTimer] else []) ++ [.delete timer.path,
      .delete service.path] ++
      if 2 ≤ failed then [.run daemonReload] else []
  | .launchd plist => (if 1 ≤ failed then [.run bootout] else []) ++ [.delete plist.path]
  | .byHand _ => []

/-- Whether the schedule is stopped now. -/
inductive Stopped where
  | gone
  | notLoaded
  | stillThere
  | unknown
  deriving DecidableEq, Repr

def stopped (stopWorked : Bool) (stillThere : Option Bool) : Stopped :=
  match stopWorked, stillThere with
  | true, _ => .gone
  | false, some false => .notLoaded
  | false, some true => .stillThere
  | false, none => .unknown

/-- Reads the answer to the question whether it is still there. What is not a clear absence
is no answer. -/
def stillThere (machine : Scheduler) (ok : Bool) (stdout stderr : String) : Option Bool :=
  if ok then some true
  else
    let absent := match machine with
      | .systemd => ["inactive", "failed", "unknown"].contains (String.ofList (trim stdout.toList))
      | .launchd =>
        let said := stderr.toList.map Char.toLower
        ["could not find service", "no such process", "no such file"].any fun phrase =>
          Cli.contains phrase.toList said
      | .neither => true
    if absent then some false else none

/-- How a person checks for themselves. -/
def checkCommand (machine : Scheduler) : String :=
  match machine with
  | .systemd => "`" ++ isActiveSyncTimer.display ++ "`"
  | .launchd => "`sudo " ++ print.display ++ "`"
  | .neither => ""

end Timer
