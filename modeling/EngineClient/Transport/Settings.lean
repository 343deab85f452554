import EngineClient.Secret
import EngineClient.Time.Span
import EngineClient.Transport.Error

/-!
# Settings of a client

How exchanges are made: time limits, the largest body, encryption, trust, a proxy, compression, logging and the
headers of every request.
-/

namespace EngineClient

/-- A proxy that connections are tunnelled through. -/
structure ProxySettings where
  url : String
  username : Option String := none
  password : Option Secret := none
  deriving DecidableEq

def ProxySettings.describe (p : ProxySettings) : String :=
  Text.braced "ProxyConfig" [("url", Text.quoted p.url), ("username", Text.described Text.quoted p.username),
    ("password", Text.described Secret.describe p.password)] true

/-- Whether requests may go unencrypted. -/
inductive Security
  | encryptedOnly
  | plainAllowed
  deriving DecidableEq, Repr

def Security.name : Security → String
  | .encryptedOnly => "TlsOnly"
  | .plainAllowed => "AllowInsecureHttp"

structure ClientSettings where
  requestTimeout : Span := .seconds 30
  connectTimeout : Option Span := none
  maxBodySize : Nat := 64 * 1024 * 1024
  userAgent : String := "ovirtsdk-http/0.1.0"
  security : Security := .encryptedOnly
  trust : Trust := .bundled
  proxy : Option ProxySettings := none
  compression : Bool := false
  wireLog : Bool := false
  /-- Headers of every request that does not set them itself. -/
  defaultHeaders : List (String × String) := []
  poolIdleTimeout : Option Span := some (.seconds 90)
  poolMaxIdle : Nat := 32
  deriving DecidableEq

namespace ClientSettings

def forTesting : ClientSettings :=
  { requestTimeout := .seconds 5, security := .plainAllowed }

def addCaSource (s : ClientSettings) (source : CaSource) : ClientSettings :=
  { s with trust := s.trust.push source }

def addDefaultHeader (s : ClientSettings) (name value : String) : ClientSettings :=
  { s with defaultHeaders := s.defaultHeaders ++ [(name, value)] }

end ClientSettings
end EngineClient
