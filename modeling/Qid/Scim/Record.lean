/-
The records of the provisioning interface.
-/
import Qid.Core.Json

namespace Qid.Scim

structure ScimUser where
  id : String
  realmId : String
  externalId : Option String
  userName : String
  nameJson : Json.Value
  emailsJson : Json.Value
  enterpriseJson : Json.Value
  /-- Only the directory writes it. -/
  directoryProviderId : Option String
  /-- Only the directory writes it. -/
  deprovisionedAt : Option Nat
  active : Bool

structure ScimGroup where
  id : String
  realmId : String
  displayName : String
  membersJson : Json.Value

end Qid.Scim
