import EngineClient.Gzip.Member
import EngineClient.Transport.Network

/-!
# Compressed bodies

A client that asks for compression unpacks what it gets. A body that cannot be unpacked ends early, with a failure
after all that could be read of it.
-/

namespace EngineClient

def gzipCoding : HeaderValue := .literal "gzip"

namespace Reply

def isPacked (r : Reply) : Bool :=
  match r.headers.get? .contentEncoding with
  | some v => v.bytes == gzipCoding.bytes
  | none => false

def data (r : Reply) : Bytes :=
  r.frames.flatMap fun
    | .data bytes => bytes
    | .trailers _ => []

def frameSize : Nat := 4096

def framesOf (bs : Bytes) : List Frame :=
  (List.range ((bs.length + frameSize - 1) / frameSize)).map fun i =>
    .data ((bs.drop (frameSize * i)).take frameSize)

/-- What ends the body: data that are broken, or the failure that cut them short, or the cut itself. -/
def unpackedFault (fault : Option Failure) : Option Gzip.Defect → Option Failure
  | none => fault
  | some .truncated => fault.or (some [.io .unexpectedEnd])
  | some .broken => some [.io .invalidData]

/-- The reply with its body unpacked and without the headers that speak of the packed one. -/
def unpack (r : Reply) : Reply :=
  if r.isPacked then
    let unpacked := Gzip.unpack r.data
    { status := r.status
      headers := (r.headers.erase .contentEncoding).erase .contentLength
      frames := framesOf unpacked.bytes.toList
      fault := unpackedFault r.fault unpacked.defect }
  else r

end Reply
end EngineClient
