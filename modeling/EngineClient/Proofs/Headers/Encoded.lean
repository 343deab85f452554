import EngineClient.Api.SignOn
import EngineClient.Proofs.Reach.Shown
import EngineClient.Proofs.Text.Base64

/-!
# Base64 in headers

An authorization is the name of its scheme and base64 behind it. A recipient that knows the scheme reads the very bytes
that were encoded, whether they are a name and a password or a ticket.
-/

namespace EngineClient
open Text

namespace HeaderValue

/-- The bytes behind the name of a scheme, decoded. -/
def encoded? (scheme : String) (v : HeaderValue) : Option Bytes := do
  let written ← decode? v.bytes
  let letters ← stripFront? scheme.toList written
  Base64.decode? letters

theorem encoded?_literal {scheme : String} (plain : Avoids isControl scheme.toList) (bs : Bytes) :
    (literal (scheme ++ String.ofList (Base64.encode bs))).markSensitive.encoded? scheme = some bs := by
  have written : decode? (literal (scheme ++ String.ofList (Base64.encode bs))).markSensitive.bytes =
      some (scheme.toList ++ Base64.encode bs) := by
    rw [bytes_markSensitive, bytes_literal_base64 scheme plain, utf8, decode?_encode, String.toList_append,
      String.toList_ofList]
  have stripped : stripFront? scheme.toList (scheme.toList ++ Base64.encode bs) = some (Base64.encode bs) :=
    stripFront?_eq_some_iff.mpr rfl
  unfold encoded?
  rw [written, Option.bind_eq_bind, Option.bind_some, stripped, Option.bind_some, Base64.decode?_encode]

theorem encoded?_basicAuthorization (u p : String) :
    (basicAuthorization u p).encoded? "Basic " = some (utf8 (u ++ ":" ++ p)) :=
  encoded?_literal (by decide) (utf8 (u ++ ":" ++ p))

theorem encoded?_negotiation (ticket : Bytes) : (SignOn.negotiation ticket).2.encoded? "Negotiate " = some ticket :=
  encoded?_literal (by decide) ticket

end HeaderValue
end EngineClient
