import SharedCanvas.Canvas.Snapshot
import SharedCanvas.Text.Number
import SharedCanvas.Json.Reader

namespace SharedCanvas

open Bytes (ofString ofDecimal)

/-- What a broadcast tells: how many clients are open, and the pixels that have changed. -/
structure Delta where
  clients : Nat
  pixels : List Pixel
deriving DecidableEq, Repr

namespace Json

def writeList (pieces : List Bytes) : Bytes :=
  openList :: (pieces.intersperse [comma]).flatten ++ [closeList]

end Json

namespace Pixel

def toJson (p : Pixel) : Bytes :=
  ofString "\x7b\"x\":" ++ ofDecimal p.x.toNat ++ ofString ",\"y\":" ++ ofDecimal p.y.toNat ++
    ofString ",\"color\":" ++ ofDecimal p.color.toNat ++ ofString "\x7d"

/-- A pixel of which some fields have been read. -/
structure Draft where
  x : Option UInt16
  y : Option UInt16
  color : Option UInt8

open Json in
def shape : Shape Draft Pixel where
  fields := [
    .of "x" word Draft.x fun d x => { d with x := some x },
    .of "y" word Draft.y fun d y => { d with y := some y },
    .of "color" byte Draft.color fun d c => { d with color := some c }]
  start := ⟨none, none, none⟩
  finish d := do return ⟨← d.x, ← d.y, ← d.color⟩

open Json in
/-- What a client wraps a pixel in: `pixel` is its only field. -/
def envelope : Shape (Option Pixel) Pixel where
  fields := [.of "pixel" shape.reader id fun _ p => some p]
  start := none
  finish := id

/-- The pixels of a client's text message, in envelopes one after another, up to the first
fault. -/
def ofText (s : Bytes) : List Pixel × Option Json.Fault :=
  Json.readStream envelope.reader [] s

end Pixel

namespace Delta

def toJson (d : Delta) : Bytes :=
  ofString "\x7b\"client_count\":" ++ ofDecimal d.clients ++ ofString ",\"updated_pixel\":" ++
    Json.writeList (d.pixels.map Pixel.toJson) ++ ofString "\x7d"

structure Draft where
  clients : Option Nat
  pixels : Option (List Pixel)

open Json in
def shape : Shape Draft Delta where
  fields := [
    .of "client_count" (integer maxWord64) Draft.clients fun d n => { d with clients := some n },
    .of "updated_pixel" (list Pixel.shape.reader) Draft.pixels
      fun d ps => { d with pixels := some ps }]
  start := ⟨none, none⟩
  finish d := do return ⟨← d.clients, ← d.pixels⟩

def ofJson (s : Bytes) : Except Json.Fault Delta := Json.readWholeText shape.reader s

end Delta

namespace Snapshot

def toJson (s : Snapshot) : Bytes :=
  ofString "\x7b\"width\":" ++ ofDecimal s.width.toNat ++ ofString ",\"height\":" ++
    ofDecimal s.height.toNat ++ ofString ",\"pixels\":" ++
    Json.writeList (s.pixels.map fun c => ofDecimal c.toNat) ++ ofString "\x7d"

structure Draft where
  width : Option UInt16
  height : Option UInt16
  pixels : Option Bytes

open Json in
def shape : Shape Draft Snapshot where
  fields := [
    .of "width" word Draft.width fun d w => { d with width := some w },
    .of "height" word Draft.height fun d h => { d with height := some h },
    .of "pixels" (list byte) Draft.pixels fun d ps => { d with pixels := some ps }]
  start := ⟨none, none, none⟩
  finish d := do return ⟨← d.width, ← d.height, ← d.pixels⟩

def ofJson (s : Bytes) : Except Json.Fault Snapshot := Json.readWholeText shape.reader s

end Snapshot
end SharedCanvas
