/-
Notes that a run leaves about its work.
-/
namespace Bulkhead

inductive Level where
  | debug
  | info
  | warning
  | error
deriving DecidableEq, Repr

namespace Level

def all : List Level :=
  [.debug, .info, .warning, .error]

def name : Level → String
  | .debug => "DEBUG"
  | .info => "INFO"
  | .warning => "WARNING"
  | .error => "ERROR"

def ofName? (name : String) : Option Level :=
  all.find? fun level => level.name == name

def rank : Level → Nat
  | .debug => 0
  | .info => 1
  | .warning => 2
  | .error => 3

end Level

/-- The part of the program that a note is about. -/
inductive Topic where
  | settings
  | protection
  | publicApi
  | persistence
  | inspection
  | factories
  | commandLine
deriving DecidableEq, Repr

namespace Topic

def name : Topic → String
  | .settings => "engine_boundary.config"
  | .protection => "engine_boundary.policy"
  | .publicApi => "engine_boundary.api_metadata"
  | .persistence => "engine_boundary.oracle"
  | .inspection => "engine_boundary.analyzer"
  | .factories => "engine_boundary.fixtures"
  | .commandLine => "engine_boundary.cli"

end Topic

structure Note where
  level : Level
  topic : Topic
  text : String
deriving DecidableEq, Repr

namespace Note

def line (n : Note) : String :=
  n.level.name ++ " " ++ n.topic.name ++ ": " ++ n.text

/-- The note is at least as grave as the threshold. -/
def reaches (threshold : Level) (n : Note) : Bool :=
  decide (threshold.rank ≤ n.level.rank)

end Note
end Bulkhead
