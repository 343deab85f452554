import EngineClient.Http.Header

/-!
# Header maps

Headers grouped by name. Groups stand in the order in which their names came first, values of a name in the order
in which they were added. `appendAll` into the empty map is how a list of headers becomes a map.
-/

namespace EngineClient

/-- Headers grouped by name. -/
structure HeaderMap where
  groups : List (HeaderName × List HeaderValue) := []
  deriving DecidableEq

namespace HeaderMap

def empty : HeaderMap := ⟨[]⟩

def capacity : Nat := 24576

def names (m : HeaderMap) : List HeaderName :=
  m.groups.map Prod.fst

def toList (m : HeaderMap) : List Header :=
  m.groups.flatMap fun g => g.2.map fun v => (g.1, v)

def valuesIn (n : HeaderName) : List (HeaderName × List HeaderValue) → List HeaderValue
  | [] => []
  | g :: r => if g.1 = n then g.2 else valuesIn n r

def getAll (m : HeaderMap) (n : HeaderName) : List HeaderValue :=
  valuesIn n m.groups

/-- The first value of a name. -/
def get? (m : HeaderMap) (n : HeaderName) : Option HeaderValue :=
  (m.getAll n).head?

def contains (m : HeaderMap) (n : HeaderName) : Bool :=
  m.names.contains n

/-- Adds a value to the groups, at the end of the group of its name. -/
def appendTo (n : HeaderName) (v : HeaderValue) :
    List (HeaderName × List HeaderValue) → List (HeaderName × List HeaderValue)
  | [] => [(n, [v])]
  | g :: r => if g.1 = n then (n, g.2 ++ [v]) :: r else g :: appendTo n v r

def append (m : HeaderMap) (n : HeaderName) (v : HeaderValue) : HeaderMap :=
  ⟨appendTo n v m.groups⟩

def appendAll (m : HeaderMap) (hs : List Header) : HeaderMap :=
  hs.foldl (fun m h => m.append h.1 h.2) m

def ofList (hs : List Header) : HeaderMap :=
  empty.appendAll hs

/-- Puts a value in place of those the name has. -/
def insertTo (n : HeaderName) (v : HeaderValue) :
    List (HeaderName × List HeaderValue) → List (HeaderName × List HeaderValue)
  | [] => [(n, [v])]
  | g :: r => if g.1 = n then (n, [v]) :: r else g :: insertTo n v r

def insert (m : HeaderMap) (n : HeaderName) (v : HeaderValue) : HeaderMap :=
  ⟨insertTo n v m.groups⟩

/-- Takes a name out; the last group moves into its place. -/
def erase (m : HeaderMap) (n : HeaderName) : HeaderMap :=
  match m.groups.findIdx? fun g => g.1 == n with
  | none => m
  | some i =>
    match m.groups.getLast? with
    | none => m
    | some last =>
      if i + 1 = m.groups.length then ⟨m.groups.dropLast⟩
      else ⟨(m.groups.dropLast).set i last⟩

/-- The map of a list of headers, unless it has more names than a map can hold. -/
def ofListWithin? (hs : List Header) : Option HeaderMap :=
  if hs.length ≤ capacity then some (ofList hs)
  else
    let m := ofList hs
    if m.groups.length ≤ capacity then some m else none

/-! ### What one more value changes -/

theorem valuesIn_appendTo (n k : HeaderName) (v : HeaderValue) (gs : List (HeaderName × List HeaderValue)) :
    valuesIn k (appendTo n v gs) = valuesIn k gs ++ if k = n then [v] else [] := by
  induction gs with
  | nil => by_cases h : n = k <;> simp [appendTo, valuesIn, h, eq_comm]
  | cons g r ih =>
    by_cases hg : g.1 = n
    · by_cases h : n = k
      · simp [appendTo, valuesIn, hg, h]
      · simp [appendTo, valuesIn, hg, h, Ne.symm h]
    · by_cases h : g.1 = k
      · have hn : ¬ k = n := fun e => hg (h.trans e)
        simp [appendTo, valuesIn, h, hn]
      · simp [appendTo, valuesIn, hg, h, ih]

@[simp]
theorem getAll_append (m : HeaderMap) (n k : HeaderName) (v : HeaderValue) :
    (m.append n v).getAll k = m.getAll k ++ if k = n then [v] else [] :=
  valuesIn_appendTo n k v m.groups

end HeaderMap
end EngineClient
