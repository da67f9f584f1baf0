import Outbox.Time.Span
import Outbox.Text.Classes
import Outbox.Text.Escape

/-!
Configuration of an outbox: the site whose inventory it keeps, how many waiting tasks start a
pass at once, how long a pass waits otherwise, when a waiting task expires, and how long
requests pause after the API refuses them.

`Config.ofLookup` reads it from named settings (`BACKLOG_SITE_ID`, `BACKLOG_MIN_TASKS`,
`BACKLOG_RUN_DELAY_SECS`, `BACKLOG_TASK_EXPIRY_SECS`, `BACKLOG_PAUSE_SECS`,
`BACKLOG_STORAGE_DIR`); a missing setting keeps its default. Numbers are read, in that order,
as whole numbers below `2^64`, with blanks around them and an optional `+`. Then the
configuration is checked: the site is not blank, has only ASCII letters, digits, `-` and `_`,
and at least one task starts a pass.
-/

set_option autoImplicit false

namespace Outbox

open Time

/-- The configuration of an outbox. -/
structure Config where
  siteId : String
  minTasks : Nat
  runDelay : Duration
  taskExpiry : Duration
  pause : Duration
  storageDir : Option String
  deriving DecidableEq, Repr

/-- Why a configuration is refused. -/
inductive ConfigError where
  | notANumber (name : String) (value : String)
  | empty (field : String)
  | zeroMinTasks
  | invalidSiteId (siteId : String)
  deriving DecidableEq, Repr

/-- The message of a configuration error. -/
def ConfigError.message : ConfigError → String
  | .notANumber name value => name ++ " must be a non-negative integer, got '" ++ value ++ "'"
  | .empty field => field ++ " must not be empty"
  | .zeroMinTasks => "min_tasks_before_run must be at least 1"
  | .invalidSiteId s =>
    "site_id may only contain ASCII letters, digits, '-' and '_', got '" ++ s ++ "'"

/-- A configuration error as a failed start reports it: the kind of error with its fields, texts
quoted. -/
def ConfigError.report : ConfigError → String
  | .notANumber name value =>
    "NotANumber \x7b name: " ++ Text.quoted name ++ ", value: " ++ Text.quoted value ++ " \x7d"
  | .empty field => "Empty(" ++ Text.quoted field ++ ")"
  | .zeroMinTasks => "ZeroMinTasks"
  | .invalidSiteId s => "InvalidSiteId(" ++ Text.quoted s ++ ")"

def settingNames : List String :=
  ["BACKLOG_SITE_ID", "BACKLOG_MIN_TASKS", "BACKLOG_RUN_DELAY_SECS", "BACKLOG_TASK_EXPIRY_SECS",
    "BACKLOG_PAUSE_SECS", "BACKLOG_STORAGE_DIR"]

namespace Config

/-- Site `default`, ten tasks, 30 s delay, three days' expiry, five minutes' pause. -/
def default : Config :=
  ⟨"default", 10, Duration.ofSecs 30, Duration.ofSecs (3 * 24 * 60 * 60),
    Duration.ofSecs (5 * 60),
    none⟩

def siteIdChar (c : Char) : Bool := c.isAlphanum || c = '-' || c = '_'

def check (c : Config) : Option ConfigError :=
  if (Text.trimBlank c.siteId).isEmpty then some (.empty "site_id")
  else if !c.siteId.toList.all siteIdChar then some (.invalidSiteId c.siteId)
  else if c.minTasks = 0 then some .zeroMinTasks
  else none

def expiryDelta (c : Config) : Delta := Delta.ofDurationClamped c.taskExpiry

end Config

/-- A whole number below `2^64`: ASCII digits after an optional `+`. -/
def readU64? (s : String) : Option Nat :=
  let ds := match s.toList with
    | '+' :: r => r
    | r => r
  if ds.isEmpty || !ds.all Char.isDigit then none
  else
    let n := ds.foldl (fun n c => 10 * n + (c.toNat - 48)) 0
    if n < Nat.pow 2 64 then some n else none

/-- A numeric setting: none when missing, an error when not a number. -/
def readSetting (lookup : String → Option String) (name : String) :
    Except ConfigError (Option Nat) :=
  match lookup name with
  | none => .ok none
  | some v =>
    match readU64? (Text.trimBlank v) with
    | some n => .ok (some n)
    | none => .error (.notANumber name v)

/-- The configuration read from named settings, as described above. -/
def Config.ofLookup (lookup : String → Option String) : Except ConfigError Config := do
  let c := Config.default
  let c := match lookup "BACKLOG_SITE_ID" with
    | some s => { c with siteId := s }
    | none => c
  let min ← readSetting lookup "BACKLOG_MIN_TASKS"
  let delay ← readSetting lookup "BACKLOG_RUN_DELAY_SECS"
  let expiry ← readSetting lookup "BACKLOG_TASK_EXPIRY_SECS"
  let pause ← readSetting lookup "BACKLOG_PAUSE_SECS"
  let c := { c with
    minTasks := min.getD c.minTasks
    runDelay := (delay.map Duration.ofSecs).getD c.runDelay
    taskExpiry := (expiry.map Duration.ofSecs).getD c.taskExpiry
    pause := (pause.map Duration.ofSecs).getD c.pause
    storageDir := (lookup "BACKLOG_STORAGE_DIR").filter (!·.isEmpty) }
  match c.check with
  | some e => .error e
  | none => pure c

end Outbox
