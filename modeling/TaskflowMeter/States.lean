import Mathlib

/-!
# State vocabulary

The state names of taskflow that the meter distinguishes, and the groups it puts
them in.  A state is any string, or absent; only these are ever looked for.
-/

namespace TaskflowMeter.States

def SUCCESS : String := "SUCCESS"
def FAILURE : String := "FAILURE"
def PENDING : String := "PENDING"
def RUNNING : String := "RUNNING"
def REVERTING : String := "REVERTING"
def REVERTED : String := "REVERTED"
def REVERT_FAILURE : String := "REVERT_FAILURE"
def RETRYING : String := "RETRYING"
def IGNORE : String := "IGNORE"
def SUSPENDED : String := "SUSPENDED"

/-- Flow states after which no further atom activity is expected. -/
def FLOW_FINISH_STATES : List String := [SUCCESS, FAILURE, REVERTED, SUSPENDED]

/-- Atom states in which a result (or failure) is available. -/
def ATOM_FINISH_STATES : List String := [SUCCESS, FAILURE, REVERTED, REVERT_FAILURE]

/-- Atom states during which reported progress is meaningful. -/
def ATOM_RUNNING_STATES : List String := [RUNNING, REVERTING, RETRYING]

/-- Atom states that contribute a completed unit of forward work. -/
def ATOM_COMPLETE_STATES : List String := [SUCCESS, IGNORE]

end TaskflowMeter.States
