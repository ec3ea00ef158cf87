import TokenBudget.Files.Path
import TokenBudget.Instant.Reader
import TokenBudget.Settings.Basic

namespace TokenBudget

/-!
# The environment

Variables that say where settings and play logs are kept, and variables that
take precedence over the settings file.
-/

/-- The variables that count; none where one is not set. -/
structure Environment where
  /-- `TOKENING_CONFIG`: the settings file. -/
  settingsFile : Option String
  /-- `TOKENING_CONTEST__START`: the start of the contest. -/
  contestStart : Option String
  /-- `TOKENING_CONTEST__PER_USER_TIME_SECS`: the participants' window. -/
  personalSeconds : Option String
  /-- `XDG_CONFIG_HOME`: the directory of settings. -/
  configHome : Option String
  /-- `XDG_DATA_HOME`: the directory of data. -/
  dataHome : Option String
  /-- `HOME`: the directory of the user. -/
  home : Option String
  deriving Repr, DecidableEq

namespace Environment

/-- No variable is set. -/
def unset : Environment where
  settingsFile := none
  contestStart := none
  personalSeconds := none
  configHome := none
  dataHome := none
  home := none

/-- The directory of the user. -/
def homeDirectory (environment : Environment) : String :=
  environment.home.getD "/tmp"

/-- The directory of this program's settings. -/
def configDirectory (environment : Environment) : String :=
  Path.join
    (environment.configHome.getD (Path.join environment.homeDirectory ".config"))
    "tokening"

/-- The directory of this program's data. -/
def dataDirectory (environment : Environment) : String :=
  Path.join
    (environment.dataHome.getD
      (Path.join (Path.join environment.homeDirectory ".local") "share"))
    "tokening"

/-- The settings file. -/
def settingsPath (environment : Environment) : String :=
  environment.settingsFile.getD (Path.join environment.configDirectory "config.toml")

/-- The play log. -/
def playLogPath (environment : Environment) : String :=
  Path.join environment.dataDirectory "plays.json"

end Environment

/-- The 64-bit number that a text spells: an optional plus sign and digits, nothing else. -/
def readWord64? (text : String) : Option UInt64 :=
  let digits :=
    match text.toList with
    | '+' :: others => others
    | all => all
  if digits.isEmpty || !digits.all Char.isDigit then
    none
  else
    let number := Text.value digits
    if number < UInt64.size then some (UInt64.ofNat number) else none

namespace Settings

/--
Settings with the variables that take precedence.  A start that cannot be read
is passed over; a window that cannot be read is no window.
-/
def override
    (settings : Settings)
    (environment : Environment) :
    Settings :=
  { settings with
    contest :=
      { settings.contest with
        start :=
          (environment.contestStart.bind Instant.ofText?).getD settings.contest.start
        personalSeconds :=
          match environment.personalSeconds with
          | none => settings.contest.personalSeconds
          | some text => readWord64? text } }

end Settings

end TokenBudget
