/-!
# Secrets

Passwords and tokens. Their text is reached through `expose` alone; every description shows a mark in its place.
-/

namespace EngineClient

/-- A text that no description shows. -/
structure Secret where
  expose : String
  deriving DecidableEq

namespace Secret

/-- What stands in a description in place of a secret. -/
def mark : String := "[REDACTED]"

def describe (_ : Secret) : String := mark

def isEmpty (s : Secret) : Bool :=
  s.expose.isEmpty

/-- The secret after its text has been erased. -/
def wipe (_ : Secret) : Secret := ⟨""⟩

instance : ToString Secret := ⟨describe⟩

theorem describe_eq (a b : Secret) : a.describe = b.describe := rfl

@[simp]
theorem isEmpty_wipe (s : Secret) : s.wipe.isEmpty = true := rfl

end Secret
end EngineClient
