import FeedbackQueue.Log.Line

/-!
# The logger

The console is installed once; from then on the logger is its limit.  Installing it again changes
nothing but the limit, and says so at the limit that was in force before.
-/

namespace FeedbackQueue.Log

/-- A logger that has a console. -/
structure Logger where
  /-- The least important level that is let through. -/
  limit : Limit
  deriving DecidableEq

namespace Logger

/-- A logger that lets nothing through. -/
def silent : Logger where
  limit := none

/-- Whether messages of a level are let through. -/
def enabled (logger : Logger) (level : Level) : Bool :=
  level.within logger.limit

/-- The lines that a message sends to the console. -/
def emit (logger : Logger) (level : Level) (message : String) : List String :=
  if logger.enabled level then [line level message] else []

/-- Installs the logger again, with a new limit. -/
def reinstall (logger : Logger) (limit : Limit) : List String × Logger :=
  (logger.emit .warn "[LOGGER] logger already installed", { limit })

end Logger

end FeedbackQueue.Log
