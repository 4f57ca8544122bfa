import Ump.Coordinator.Handlers
import Ump.Mission.Agreement
import Ump.Participant.Messages

/-!
# A robot's messages at its coordinator

## Messages that cross

Whatever the participant says of an assignment that only the coordinator delivers is about
a step that the coordinator has dispatched to this robot, and its handler can read it. The
handler still raises where its commit meets a step that has gone on without the message.
-/

namespace Ump.Mission

open Foundation

/-- What the participant hears from the coordinator, the coordinator has published. Only
the coordinator sends the assignment, and the adapter returns outcomes that have been built. -/
def conforms (config : Participant.Config) (coordinatorId assignmentId : String) :
    Joint.Guard Coordinator.Memory Participant.Memory Participant.Task Participant.Reading
      Participant.Entry :=
  fun m => (Participant.ReceivesFrom coordinatorId (m.published.map Prod.snd)).both
    ((Participant.SentBy config coordinatorId assignmentId).both Participant.ReturnsBuilt)

/-- A thread of the coordinator handles what the participant has sent; the log has its turns,
and any thread of the coordinator may move in between. -/
def Handled (coordinator : Coordinator.Config) (s : Parties)
    (publication : Participant.Publication)
    (log : List (Turn Coordinator.Memory Coordinator.Task Coordinator.Reading)) : Prop :=
  publication ∈ s.right.shared.sent ∧ exists received last,
    (Coordinator.machine coordinator).step s.left (.spawn (.receive publication.envelope)) =
      some received ∧
    (Coordinator.machine coordinator).Turns s.left.threads.length received log last

section

variable {coordinator : Coordinator.Config} {participant : Participant.Config}
variable {assignmentId : String} {p : Pool Coordinator.Memory Coordinator.Task}
variable {q : Pool Participant.Memory Participant.Task}

end

/-!
## What its handler reads
-/

def patrolCoordinator : Coordinator.Config :=
  { Coordinator.patrolConfig with sha256 := Participant.patrolSha256 }

end Ump.Mission
