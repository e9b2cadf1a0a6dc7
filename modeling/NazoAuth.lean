import NazoAuth.Refresh.Reuse
import NazoAuth.Refresh.Reclaim
import NazoAuth.Issuance.SingleUse
import NazoAuth.Device.Protocol
import NazoAuth.Ciba.Requests
import NazoAuth.AuthorizationCode.Redemption
import NazoAuth.Decision.Final
import NazoAuth.Revocation.Retention
import NazoAuth.Operator.Cleanup
import NazoAuth.SdJwt.RoundTrip
import NazoAuth.DigitalCredentials.Trust
import NazoAuth.Openid4vp.Satisfaction
import NazoAuth.Replay.Cache
import NazoAuth.Replay.Saml
import NazoAuth.OperatorProtocol.Canonical
import NazoAuth.Token.Exchange
import NazoAuth.RuntimeCapabilities.FailClosed
import NazoAuth.Keys.History
import NazoAuth.Controller.Attempts
import NazoAuth.RuntimeCapabilities.Desired
import NazoAuth.Openid4vci.Issuance
import NazoAuth.Identity.Mfa
