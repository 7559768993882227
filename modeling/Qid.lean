import Qid.OAuth.Decode
import Qid.OAuth.RefreshSafety
import Qid.OAuth.CodeSafety
import Qid.OAuth.DeviceSafety
import Qid.Storage.Flush
import Qid.Push.Safety
import Qid.Push.Quota
import Qid.Policy.Evidence
import Qid.Rebac.Isolation
import Qid.Iga.Interleaving
import Qid.Iga.Sod
import Qid.Token.Rotation
import Qid.Dpop.Assertions
import Qid.Session.Lockout
import Qid.Session.LoginSafety
import Qid.Session.TotpEnroll
import Qid.Core.Throttle
import Qid.RateLimit.Attempts
import Qid.RateLimit.Capacity
import Qid.File.Deletion
import Qid.File.Uniqueness
import Qid.Directory.Convergence
import Qid.Directory.Authority
import Qid.Directory.Deprovision
import Qid.Scim.Safety
import Qid.Proxy.Transparency
import Qid.SessionCache.Safety
import Qid.Federation.Provisioning
import Qid.Network.Codec
import Qid.Network.MessageAuthenticator
import Qid.Audit.Retention
import Qid.Audit.Ordered
import Qid.Audit.Archive
import Qid.Saml.Calendar
import Qid.Saml.Ids
import Qid.Ops.Backup
import Qid.Ops.Keyring
