import SharedCanvas.Proofs.Http.Written
import SharedCanvas.Proofs.Session.Response

namespace SharedCanvas

open Text

theorem Bytes.cr_not_mem_ofString {cs : List Char} (h : '\r' ∉ cs) :
    Handshake.cr ∉ ofString (String.ofList cs) := by
  rw [ofString_ofList, List.mem_flatMap]
  rintro ⟨c, hc, hm⟩
  have he : c = '\r' := Char.toNat_inj.1 (toNat_eq_of_mem_utf8EncodeChar hm (by decide))
  exact h (he ▸ hc)

namespace Handshake

open Request

theorem ofString_head (lines : List (List Char)) :
    Bytes.ofString (String.ofList (lines.flatMap (· ++ Text.crlf) ++ Text.crlf)) =
      headOf (lines.map fun l => Bytes.ofString (String.ofList l)) := by
  have hc : Text.crlf.flatMap String.utf8EncodeChar = crlf := by decide
  simp only [headOf, Bytes.ofString_ofList, List.flatMap_append, hc, List.flatMap_assoc,
    List.flatMap_map]

section
variable {line : List Char} {lines : List (List Char)}

/-- A head without empty lines ends at its own end, whatever stands behind it. -/
theorem headEnd?_head (h : ∀ l ∈ line :: lines, l ≠ [] ∧ '\r' ∉ l) {head : Bytes}
    (he : head = Bytes.ofString
      (String.ofList ((line :: lines).flatMap (· ++ Text.crlf) ++ Text.crlf))) (rest : Bytes) :
    headEnd? (head ++ rest) = some head.length := by
  have hl : ∀ l ∈ line :: lines, IsLine (Bytes.ofString (String.ofList l)) := by
    intro l hm
    refine ⟨?_, Bytes.cr_not_mem_ofString (h l hm).2⟩
    obtain ⟨c, l, rfl⟩ := List.exists_cons_of_ne_nil (h l hm).1
    intro hn
    have hz := congrArg List.length hn
    rw [Bytes.ofString_ofList, List.flatMap_cons, List.length_append,
      String.length_utf8EncodeChar, List.length_nil] at hz
    have := c.utf8Size_pos
    omega
  have hm := List.forall_mem_map.2 hl
  rw [List.map_cons] at hm
  rw [he, ofString_head, List.map_cons, headEnd?, headEndFrom_headOf hm, Nat.zero_add]

/-- The value of a header of a response. Below its first line it is read as a request is. -/
def responseHeader? (response : Bytes) (name : String) : Option String := do
  let text ← Bytes.toString? response
  match readHeaders 0 (Text.lines text.toList).tail with
  | .error _ => none
  | .ok headers => header? ⟨"", "", "", headers⟩ name

theorem responseHeader?_head {hs : List (String × String)} (hl : '\r' ∉ line)
    (hp : ∀ h ∈ hs, IsPlain h) (hc : hs.length ≤ maxHeaders) (name : String) :
    responseHeader? (Bytes.ofString
      (String.ofList ((line :: hs.map plainLine).flatMap (· ++ Text.crlf) ++ Text.crlf))) name =
      header? ⟨"", "", "", hs.map trimmed⟩ name := by
  have hls := headerLines_plain hp
  have hheaders := List.forall_mem_map.2 fun h hm => (hp h hm).isHeader
  have hlines : ∀ l ∈ line :: hs.map plainLine, Text.IsLine l :=
    List.forall_mem_cons.2 ⟨isLine_of_not_mem hl, hls.isLine hheaders⟩
  have hread := hls.readHeaders_eq hheaders (by rwa [List.length_map])
  have hend : Text.lines Text.crlf = [[], []] := rfl
  rw [responseHeader?, Bytes.toString?_ofString]
  simp only [Option.bind_eq_bind, Option.bind_some, String.toList_ofList, lines_flatMap hlines,
    hend, List.cons_append, List.tail_cons, hread]

end

end Handshake
end SharedCanvas
