import EngineClient.Gzip.Inflate

/-!
# Gzip streams

A stream is a row of members, each a header, deflated data, and the checksum and size of what it holds.
-/

namespace EngineClient.Gzip

/-! ### Checksums -/

def divideBit (c : UInt32) : UInt32 :=
  if c &&& 1 = 1 then (c >>> 1) ^^^ 0xEDB88320 else c >>> 1

def checksum (bs : Array UInt8) : UInt32 :=
  ~~~(bs.foldl (fun c b => Nat.repeat divideBit 8 (c ^^^ b.toUInt32)) 0xFFFFFFFF)

/-! ### Headers -/

def skipBytes (n : Nat) (bs : Bytes) : Except Defect Bytes :=
  if bs.length < n then .error .truncated else .ok (bs.drop n)

def skipText (bs : Bytes) : Except Defect Bytes :=
  skipBytes 1 (bs.dropWhile (· != 0))

def skipField : Bytes → Except Defect Bytes
  | low :: high :: r => skipBytes (low.toNat + 256 * high.toNat) r
  | _ => .error .truncated

/-- Parts that a header may have; each says by its bit that it is there. -/
def optionalParts : List (Nat × (Bytes → Except Defect Bytes)) :=
  [(2, skipField), (3, skipText), (4, skipText), (1, skipBytes 2)]

def afterHeader : Bytes → Except Defect Bytes
  | 0x1F :: 0x8B :: 8 :: flags :: r => do
    let r ← skipBytes 6 r
    optionalParts.foldlM (fun r part => if flags.toNat.testBit part.1 then part.2 r else .ok r) r
  | bs => .error (if bs.length < 4 && [0x1F, 0x8B, 8].take bs.length == bs.take 3 then .truncated else .broken)

/-! ### Members -/

def bitsOf (bs : Bytes) : Bits :=
  bs.flatMap fun b => (List.range 8).map b.toNat.testBit

/-- What a stream holds, up to its end or to what is wrong with it. -/
structure Unpacked where
  bytes : Array UInt8
  defect : Option Defect

def body : Inflate Unit := do
  Inflate.blocks ((← get).bits.length + 1)
  let out := (← get).out
  if (← Inflate.number 32) ≠ (checksum out).toNat then throw .broken
  if (← Inflate.number 32) ≠ out.size % 0x100000000 then throw .broken

def bytesOf : Bits → Bytes
  | a :: b :: c :: d :: e :: f :: g :: h :: r =>
    UInt8.ofNat ([a, b, c, d, e, f, g, h].foldr (fun bit n => bit.toNat + 2 * n) 0) :: bytesOf r
  | _ => []

/-- Reads at most `fuel` members after `got`. -/
def members : Nat → Array UInt8 → Bytes → Unpacked
  | 0, got, _ => ⟨got, some .truncated⟩
  | fuel + 1, got, bs =>
    match afterHeader bs with
    | .error defect => ⟨got, some defect⟩
    | .ok r =>
      match body.run { bits := bitsOf r } with
      | .error defect w => ⟨got ++ w.out, some defect⟩
      | .ok _ w => if w.bits.isEmpty then ⟨got ++ w.out, none⟩ else members fuel (got ++ w.out) (bytesOf w.bits)

def unpack (bs : Bytes) : Unpacked :=
  members (bs.length + 1) #[] bs

end EngineClient.Gzip
