import EngineClient.Http.HeaderMap

/-!
# Headers of every request

The user agent and further headers, added to a request for each name that it does not have.
-/

namespace EngineClient

namespace DefaultHeaders

def parse? (h : String × String) : Except HeaderError Header := do
  return (← HeaderName.parse? h.1, ← HeaderValue.parse? h.2)

def ofSettings (userAgent : String) (extra : List (String × String)) : Except HeaderError HeaderMap := do
  let agent ← HeaderValue.parse? userAgent
  return (HeaderMap.empty.insert .userAgent agent).appendAll (← extra.mapM parse?)

/-- Adds the values of each name that a request does not have. -/
def apply (defaults request : HeaderMap) : HeaderMap :=
  request.appendAll (defaults.toList.filter fun h => !request.contains h.1)

end DefaultHeaders
end EngineClient
