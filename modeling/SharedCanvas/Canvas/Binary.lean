import SharedCanvas.Canvas.Snapshot
import SharedCanvas.Frame.Basic

namespace SharedCanvas

/-- Column, row and colour; the words low byte first. -/
def Pixel.record (p : Pixel) : Bytes := Bytes.ofWordLE p.x ++ Bytes.ofWordLE p.y ++ [p.color]

namespace Pixel

def toRecords (ps : List Pixel) : Bytes := ps.flatMap record

def appendRecords (ps : List Pixel) (out : Bytes) : Bytes :=
  ps.foldl (fun out p => out ++ Bytes.ofWordLE p.x ++ Bytes.ofWordLE p.y ++ [p.color]) out

/-- Every whole record. Fewer than five bytes at the end are dropped. -/
def ofRecords : Bytes → List Pixel
  | a :: b :: c :: d :: e :: rest =>
    ⟨Bytes.toWordLE a b, Bytes.toWordLE c d, e⟩ :: ofRecords rest
  | _ => []

end Pixel

namespace Snapshot

def encode (s : Snapshot) : Bytes := Bytes.ofWordLE s.width ++ Bytes.ofWordLE s.height ++ s.pixels

def headerLength : Nat := 4

def decode : Bytes → Except ProtocolError Snapshot
  | a :: b :: c :: d :: pixels =>
    let s : Snapshot := ⟨Bytes.toWordLE a b, Bytes.toWordLE c d, pixels⟩
    if pixels.length = s.area then .ok s else .error (.snapshotSize pixels.length s.area)
  | _ => .error .truncated

theorem length_encode (s : Snapshot) : s.encode.length = headerLength + s.pixels.length := by
  simp [encode, Bytes.ofWordLE, headerLength]; omega

end Snapshot

namespace Pixel

theorem ofRecords_record_append (p : Pixel) (rest : Bytes) :
    ofRecords (p.record ++ rest) = p :: ofRecords rest := by
  simp [record, Bytes.ofWordLE, ofRecords]

end Pixel
end SharedCanvas
