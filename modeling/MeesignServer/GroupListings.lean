import MeesignServer.RowGroups
import MeesignServer.ServerModel

/-!
# Listings of groups

`get_groups` gathers the participants of all groups, `get_device_groups` joins the tables
through one device, and `get_group` filters them by one group. The database returns rows in
any order, so a query here is given the rows as they were loaded.
-/
namespace GroupListings

open FiniteMap RowGroups DataModel DatabaseModel ServerModel

def memberOf (row : GroupParticipantRow) : Bytes × ℕ := (row.deviceId, asU32 row.shares)

/-- The loop of both listings: each group row takes its participants out of the map. -/
def assembleGroups (participants : List GroupParticipantRow) (groups : List GroupRow) :
    List Group :=
  drain GroupRow.id GroupRow.toGroup
    (gather (participants.map fun row => (row.groupId, memberOf row))) groups

/-- The rows of `group_participant` joined with those of the device in the same group -/
def participantsWith (db : Database) (deviceId : Bytes) : List GroupParticipantRow :=
  join (fun row row2 => row2.groupId = row.groupId && row2.deviceId = deviceId)
    db.groupParticipant db.groupParticipant

def groupsWith (db : Database) (deviceId : Bytes) : List GroupRow :=
  join (fun group row => row.groupId = group.id && row.deviceId = deviceId)
    db.group db.groupParticipant

variable {db : Database} {d groupId : Bytes} {participants rows : List GroupParticipantRow}
  {groups : List GroupRow}

section Agree

variable {listing mine : List Group}

end Agree

end GroupListings
