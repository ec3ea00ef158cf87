import TokenBudget.Contest.PlayLog
import TokenBudget.Settings.Basic

namespace TokenBudget.Command

/-!
# Reports

The texts that commands write: how to use the program, the policies of a contest,
the standing of a participant on a task, and a play that was accepted.
-/

/-- Lines with a line feed after each. -/
def lines (texts : List String) : String :=
  String.join (texts.map fun text => text ++ "\n")

/-- A line across the page. -/
def rule : String :=
  "═══════════════════════════════════════"

/-- How to use the program. -/
def usage : String :=
  lines
    ["Usage: tokening-ctl [options] <command>",
      "",
      "Commands:",
      "  policy                                  Show contest and task token policies",
      "  status <participant> <task>             Show tokens available on a task",
      "  play <participant> <task> <submission>  Play a token on a submission",
      "  init                                    Write a default config if none exists " ++
        "(honours --config)",
      "",
      "Options:",
      "  --config <path>   Config file (default: $TOKENING_CONFIG or " ++
        "~/.config/tokening/config.toml)",
      "  --plays <path>    Play log (default: ~/.local/share/tokening/plays.json, " ++
        "one writer at a time)",
      "  --at <time>       Evaluate at an RFC 3339 instant instead of now",
      "  --json            Print status as JSON"]

/-- A dash for what is not there. -/
def orDash
    (text : Value → String) :
    Option Value → String
  | none => "-"
  | some value => text value

/-- A limit in digits. -/
def limitText (limit : Option UInt32) : String :=
  orDash (fun value => toString value.toNat) limit

/-- The whole seconds of a length of time. -/
def secondsText (duration : Duration) : String :=
  toString duration.seconds.toNat ++ "s"

/-- The policy of a named pool. -/
def policyLines
    (name : String)
    (policy : Policy) :
    List String :=
  if !policy.isEnabled then
    ["  ┌─ " ++ name,
      "  └─ disabled"]
  else if policy.isInfinite then
    ["  ┌─ " ++ name,
      "  │  infinite",
      "  └─ min interval : " ++ secondsText policy.cooldown]
  else
    ["  ┌─ " ++ name,
      "  │  initial      : " ++ limitText policy.initial,
      "  │  generation   : +" ++ toString policy.perPeriod.toNat ++ " every " ++
        secondsText policy.period,
      "  │  max held     : " ++ limitText policy.cap,
      "  │  max total    : " ++ limitText policy.lifetime,
      "  └─ min interval : " ++ secondsText policy.cooldown]

/-- The policies of the tasks in order of their names. -/
def taskLines (contest : Contest) : List String :=
  contest.taskNames.flatMap fun name =>
    match contest.tasks.find? name with
    | some policy => policyLines name policy
    | none => []

/-- The policies of a contest with so many participants set. -/
def policyReport
    (contest : Contest)
    (participants : Nat) :
    String :=
  lines
    ([rule,
        "  Token Policies",
        rule,
        "  Contest start    : " ++ contest.schedule.contestStart.toText .report,
        "  Per-user window  : " ++ orDash secondsText contest.schedule.personalTime,
        "  Participants     : " ++ toString participants,
        ""] ++
      policyLines "contest" contest.pool ++
      taskLines contest)

/-- An instant in the form of reports. -/
def instantText (instant : Option Instant) : String :=
  orDash (Instant.toText .report) instant

/-- The standing of a participant on a task. -/
def standingReport
    (participant task : String)
    (now : Instant)
    (standing : Standing) :
    String :=
  lines
    [rule,
      "  Tokens — " ++ participant ++ " on " ++ task,
      rule,
      "  At               : " ++ now.toText .report,
      "  Available        : " ++ standing.count.toText,
      "  Next generation  : " ++ instantText standing.nextGrowth,
      "  Cooldown until   : " ++ instantText standing.cooldownEnd,
      "  Can play now     : " ++ if standing.canPlay then "yes" else "no"]

/-- A count as a JSON value. -/
def countJson : TokenCount → Json.Value
  | .finite count => .ofFields [("finite", .number (Text.digits count.toNat))]
  | .infinite => .ofText "infinite"

/-- An instant as a JSON value. -/
def instantJson : Option Instant → Json.Value
  | none => .null
  | some instant => .ofText (instant.toText .data)

/-- A standing as a JSON value. -/
def standingJson (standing : Standing) : Json.Value :=
  .ofFields
    [("available", countJson standing.count),
      ("next_generation", instantJson standing.nextGrowth),
      ("cooldown_expiration", instantJson standing.cooldownEnd)]

/-- A play that was accepted. -/
def playReport (play : Play) : String :=
  lines
    ["✓ Token played on " ++ play.submission ++ " (" ++ play.participant ++ " / " ++
      play.task ++ ") at " ++ play.instant.toText .report]

end TokenBudget.Command
