import MeesignServer.DataModel

/-!
# Voting tasks

A participant votes with all its shares. The vote is stored as an `i8`, so a
share count above 127 is stored as another number, possibly of the other sign.
-/
namespace VotingModel

open FiniteMap DataModel

inductive RunningTaskContext where
  | group (threshold : ℕ) (note : Option String)
  | signChallenge (group : Group) (data : Bytes)
  | signPdf (group : Group) (data : Bytes)
  | decrypt (group : Group) (data : Bytes)

structure VotingTask where
  taskInfo : TaskInfo
  decisions : Map Bytes ℤ
  acceptThreshold : ℕ
  runningTaskContext : RunningTaskContext

structure DeclinedTask where
  taskInfo : TaskInfo
  accepts : ℕ
  rejects : ℕ

inductive DecisionUpdate where
  | undecided
  | accepted
  | declined (task : DeclinedTask)

/-- The stored vote: `as i8`, and a negation that wraps at -128. -/
def voteOf (shares : ℤ) (accept : Bool) : ℤ :=
  if accept then asI8 shares else asI8 (-asI8 shares)

def acceptsRejects (decisions : Map Bytes ℤ) : ℕ × ℕ :=
  (values decisions).foldl (fun (t : ℕ × ℕ) (vote : ℤ) =>
    (if 0 < vote then t.1 + vote.natAbs else t.1,
      if vote < 0 then t.2 + vote.natAbs else t.2)) (0, 0)

/-- `total_shares - accept_threshold + 1` in `u32` arithmetic. -/
def rejectThreshold (totalShares acceptThreshold : ℕ) : ℕ :=
  asU32 ((totalShares : ℤ) - acceptThreshold + 1)

namespace VotingTask

def rejectThreshold (task : VotingTask) : ℕ :=
  VotingModel.rejectThreshold task.taskInfo.totalShares task.acceptThreshold

def deviceAccepted (task : VotingTask) (deviceId : Bytes) : Bool :=
  (task.decisions.lookup deviceId).any (0 < ·)

def vote (task : VotingTask) (deviceId : Bytes) (vote : ℤ) : VotingTask :=
  { task with decisions := task.decisions.insert deviceId vote }

def decisionUpdate (task : VotingTask) : DecisionUpdate :=
  let (accepts, rejects) := acceptsRejects task.decisions
  if task.acceptThreshold ≤ accepts then .accepted
  else if task.rejectThreshold ≤ rejects then .declined ⟨task.taskInfo, accepts, rejects⟩
  else .undecided

def decide (task : VotingTask) (deviceId : Bytes) (accept : Bool) :
    Except Error (VotingTask × DecisionUpdate) :=
  match task.taskInfo.participants.find? (fun p => p.device.id = deviceId) with
  | none => .error (.generalProtocol "Invalid task participant id")
  | some participant =>
    let task := task.vote deviceId (voteOf participant.shares accept)
    .ok (task, task.decisionUpdate)

end VotingTask

end VotingModel
