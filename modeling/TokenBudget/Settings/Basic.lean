import TokenBudget.Contest.Rules

namespace TokenBudget

/-!
# Settings of a contest

What a contest is set up with: its start, the window of each participant, the
way each pool hands out tokens, and the participants.  `TokenMode.policy` and
`Contest.ofSettings` turn settings into rules.
-/

/-- The numbers of a pool that hands out finitely many tokens. -/
structure FiniteTokens where
  /-- Tokens held at the start. -/
  initial : UInt32
  /-- Tokens added at the end of every period. -/
  perPeriod : UInt32
  /-- Length of a period in seconds. -/
  periodSeconds : UInt64
  /-- The most tokens held at once. -/
  cap : Option UInt32
  /-- The most tokens ever spent. -/
  lifetime : Option UInt32
  /-- The least number of seconds between two plays. -/
  cooldownSeconds : UInt64
  deriving Repr, DecidableEq

/-- How a pool hands out tokens. -/
inductive TokenMode where
  | disabled
  | finite (tokens : FiniteTokens)
  | infinite
  deriving Repr, DecidableEq

/-- Start, participants' window in seconds, and contest pool. -/
structure ContestSettings where
  start : Instant
  personalSeconds : Option UInt64
  tokens : TokenMode
  deriving Repr, DecidableEq

/-- A task and its pool. -/
structure TaskSettings where
  name : String
  tokens : TokenMode
  deriving Repr, DecidableEq

/-- Everything that is set for a contest. -/
structure Settings where
  contest : ContestSettings
  tasks : List TaskSettings
  participants : List Participation
  deriving Repr, DecidableEq

namespace FiniteTokens

/-- Two tokens at the start and two more every half hour. -/
def default : FiniteTokens where
  initial := 2
  perPeriod := 2
  periodSeconds := 1800
  cap := none
  lifetime := none
  cooldownSeconds := 0

end FiniteTokens

namespace TokenMode

/-- The policy of a mode. -/
def policy : TokenMode → Policy
  | .disabled => .disabled
  | .infinite => .infinite
  | .finite tokens =>
      { initial := some tokens.initial
        cap := tokens.cap
        lifetime := tokens.lifetime
        cooldown := .ofSeconds tokens.cooldownSeconds
        period := .ofSeconds tokens.periodSeconds
        perPeriod := tokens.perPeriod }

end TokenMode

namespace ContestSettings

/-- The beginning of the year 2000. -/
def defaultStart : Instant :=
  .ofSecond ({ year := 2000, month := 1, day := 1 } : Date).dayNumber 0 (by decide)
    (by decide) secondsPerDay_pos

/-- A contest from the year 2000 with tokens without end. -/
def default : ContestSettings where
  start := defaultStart
  personalSeconds := none
  tokens := .infinite

/-- The window of each participant; a window of no seconds is none. -/
def personalTime (settings : ContestSettings) : Option Duration :=
  match settings.personalSeconds with
  | none => none
  | some seconds =>
      if seconds = 0 then none else some (.ofSeconds seconds)

/-- The schedule that is set. -/
def schedule (settings : ContestSettings) : Schedule where
  contestStart := settings.start
  personalTime := settings.personalTime

end ContestSettings

namespace Settings

/-- The default contest without tasks and participants. -/
def default : Settings where
  contest := .default
  tasks := []
  participants := []

end Settings

namespace Contest

/-- The rules that settings describe; of entries with one name the last counts. -/
def ofSettings (settings : Settings) : Contest :=
  let bare := Contest.new settings.contest.schedule settings.contest.tokens.policy
  let withTasks := settings.tasks.foldl
    (fun contest task => contest.addTask task.name task.tokens.policy) bare
  settings.participants.foldl addParticipation withTasks

end Contest

end TokenBudget
