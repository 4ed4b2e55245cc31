import SharedCanvas.Proofs.Http.Head

namespace SharedCanvas

open Text

namespace Handshake

open Request

def asking (host key : String) : List (String × String) :=
  [("Host", host), ("Upgrade", "websocket"), ("Connection", "Upgrade"),
    ("Sec-WebSocket-Key", key), ("Sec-WebSocket-Version", "13")]

def asked (host path key : String) : Request :=
  ⟨"GET", path, "HTTP/1.1", (asking host key).map trimmed⟩

theorem upgradeRequest_eq (host path key : String) : upgradeRequest host path key =
    Bytes.ofString (String.ofList (((asked host path key).requestLine [' '] [' '] ::
      (asking host key).map plainLine).flatMap (· ++ Text.crlf) ++ Text.crlf)) := by
  refine congrArg Bytes.ofString (String.toList_injective ?_)
  simp [asked, asking, plainLine, requestLine, Text.crlf]

variable {host path key : String}

theorem isPlain_asking (hh : '\r' ∉ host.toList) (hk : '\r' ∉ key.toList) :
    ∀ h ∈ asking host key, IsPlain h := by
  simp only [asking, List.forall_mem_cons]
  exact ⟨isPlain_of (by decide) (by decide) hh,
    isPlain_of (by decide) (by decide) (by decide), isPlain_of (by decide) (by decide) (by decide),
    isPlain_of (by decide) (by decide) hk, isPlain_of (by decide) (by decide) (by decide), by simp⟩

theorem isWellFormed_asked (hh : '\r' ∉ host.toList) (hk : '\r' ∉ key.toList)
    (hp : IsWord path.toList) : (asked host path key).IsWellFormed := by
  have hget : IsWord "GET".toList := by decide
  have hhttp : IsWord "HTTP/1.1".toList := by decide
  have hv : "HTTP/1.".toList <+: "HTTP/1.1".toList := by decide
  refine ⟨hget, hp, hhttp, hv, by simp [asked, asking, maxHeaders], ?_⟩
  exact List.forall_mem_map.2 fun h hm => (isPlain_asking hh hk h hm).isHeader

theorem parse_upgradeRequest (hh : '\r' ∉ host.toList) (hk : '\r' ∉ key.toList)
    (hp : IsWord path.toList) :
    Request.parse (upgradeRequest host path key) = .ok (asked host path key) := by
  have hs : IsPadding [' '] := isPadding_of_blanks (by simp)
  have hls : HeaderLines (asked host path key).headers _ :=
    headerLines_plain (isPlain_asking hh hk)
  rw [upgradeRequest_eq]
  exact (Written.mk hs (by simp) hs (by simp) hls).parse_eq (isWellFormed_asked hh hk hp)

theorem headEnd?_upgradeRequest (hh : '\r' ∉ host.toList) (hk : '\r' ∉ key.toList)
    (hp : IsWord path.toList) (rest : Bytes) :
    headEnd? (upgradeRequest host path key ++ rest) =
      some (upgradeRequest host path key).length := by
  refine headEnd?_head (List.forall_mem_cons.2 ⟨⟨by simp [requestLine, asked], ?_⟩, ?_⟩)
    (upgradeRequest_eq host path key) rest
  · have hget : '\r' ∉ "GET".toList := by decide
    have hhttp : '\r' ∉ "HTTP/1.1".toList := by decide
    simp only [requestLine, asked, List.mem_append, not_or]
    exact ⟨⟨⟨⟨hget, by decide⟩, hp.cr_not_mem⟩, by decide⟩, hhttp⟩
  · intro l hl
    obtain ⟨h, hm, rfl⟩ := List.mem_map.1 hl
    exact ⟨by simp [plainLine], (isPlain_asking hh hk h hm).cr_not_mem⟩

theorem judge_asked (hb : trim key.toList ≠ []) (n : Nat) : judge (asked host path key) n =
    .ok (.upgraded (upgradeResponse (acceptKey (String.ofList (trim key.toList)))) n) := by
  have hw : (asked host path key).wantsWebSocket = true := by
    have hu : (asked host path key).header? "Upgrade" =
        some (String.ofList (trim "websocket".toList)) := by
      have h1 : sameIgnoringCase "Host" "Upgrade" = false := by decide
      simp [header?, asked, asking, trimmed, h1, sameIgnoringCase_refl]
    rw [wantsWebSocket, hu]
    decide
  have hk : key? (asked host path key) = some (String.ofList (trim key.toList)) := by
    have hu : (asked host path key).header? "Sec-WebSocket-Key" =
        some (String.ofList (trim key.toList)) := by
      have h1 : sameIgnoringCase "Host" "Sec-WebSocket-Key" = false := by decide
      have h2 : sameIgnoringCase "Upgrade" "Sec-WebSocket-Key" = false := by decide
      have h3 : sameIgnoringCase "Connection" "Sec-WebSocket-Key" = false := by decide
      simp [header?, asked, asking, trimmed, h1, h2, h3, sameIgnoringCase_refl]
    have he : (trim key.toList).isEmpty = false := by simpa using hb
    rw [key?, hu]
    simp only [String.toList_ofList, (isTrimmed_trim key.toList).trim_eq, he]
    rfl
  have hg : sameIgnoringCase (asked host path key).method "GET" = true := sameIgnoringCase_refl _
  simp only [judge, hw, hg, hk]
  rfl

theorem process_upgradeRequest (hh : '\r' ∉ host.toList) (hk : '\r' ∉ key.toList)
    (hb : trim key.toList ≠ []) (hp : IsWord path.toList)
    (hl : (upgradeRequest host path key).length ≤ maxHead) (rest : Bytes) :
    process (upgradeRequest host path key ++ rest) =
      .ok (.upgraded (upgradeResponse (acceptKey (String.ofList (trim key.toList))))
        (upgradeRequest host path key).length) := by
  rw [process, headEnd?_upgradeRequest hh hk hp rest]
  dsimp only
  rw [if_neg (Nat.not_lt.2 hl), List.take_left, parse_upgradeRequest hh hk hp]
  exact judge_asked hb _

def answering (accept : String) : List (String × String) :=
  [("Upgrade", "websocket"), ("Connection", "Upgrade"), ("Sec-WebSocket-Accept", accept)]

theorem upgradeResponse_eq_head (accept : String) : upgradeResponse accept =
    Bytes.ofString (String.ofList (("HTTP/1.1 101 Switching Protocols".toList ::
      (answering accept).map plainLine).flatMap (· ++ Text.crlf) ++ Text.crlf)) := by
  refine congrArg Bytes.ofString (String.toList_injective ?_)
  simp [answering, plainLine, Text.crlf]

theorem toList_acceptKey (key : String) : (acceptKey key).toList =
    Base64.encode (Sha1.digest (Bytes.ofString key ++ Bytes.ofString guid)) :=
  String.toList_ofList

/-- The key and the answer that the protocol's own text gives. -/
example : acceptKey "dGhlIHNhbXBsZSBub25jZQ==" = "s3pPLMBiTxaQ9kYGzzhZRbK+xOo=" := by
  decide +kernel

theorem length_toList_acceptKey (key : String) : (acceptKey key).toList.length = 28 := by
  rw [toList_acceptKey, Base64.length_encode, Sha1.length_digest]

theorem isWord_acceptKey (key : String) : IsWord (acceptKey key).toList := by
  constructor
  · intro h
    have hl := length_toList_acceptKey key
    rw [h] at hl
    exact absurd hl (by decide)
  · intro c hc
    have ha : ('=' :: Base64.alphabet).all (fun c => isBlank c = false) = true := by decide +kernel
    rw [toList_acceptKey] at hc
    exact of_decide_eq_true (List.all_eq_true.1 ha c (Base64.forall_mem_encode _ c hc))

theorem isPlain_answering (key : String) : ∀ h ∈ answering (acceptKey key), IsPlain h := by
  simp only [answering, List.forall_mem_cons]
  exact ⟨isPlain_of (by decide) (by decide) (by decide),
    isPlain_of (by decide) (by decide) (by decide),
    isPlain_of (by decide) (by decide) (isWord_acceptKey key).cr_not_mem, by simp⟩

theorem responseHeader?_accept (key : String) :
    responseHeader? (upgradeResponse (acceptKey key)) "Sec-WebSocket-Accept" =
      some (acceptKey key) := by
  have ht : trim (acceptKey key).toList = (acceptKey key).toList :=
    (isWord_acceptKey key).isTrimmed.trim_eq
  have h1 : sameIgnoringCase "Upgrade" "Sec-WebSocket-Accept" = false := by decide
  have h2 : sameIgnoringCase "Connection" "Sec-WebSocket-Accept" = false := by decide
  rw [upgradeResponse_eq_head, responseHeader?_head (by decide) (isPlain_answering key)
    (by simp [answering, maxHeaders])]
  simp [header?, answering, trimmed, h1, h2, sameIgnoringCase_refl, ht]

/-- What a client asks with is taken as a request to upgrade that is as long as it is, whatever
comes behind it, and the answer is to its key. The answer is one head, and it says the digest that
belongs to the key in Base64. An LF may stand in the host and in the key. -/
theorem upgradeRequest_is_answered {host path key : String} (hh : '\r' ∉ host.toList)
    (hk : '\r' ∉ key.toList) (hb : trim key.toList ≠ []) (hp : IsWord path.toList)
    (hl : (upgradeRequest host path key).length ≤ maxHead) (rest : Bytes) :
    let k := String.ofList (trim key.toList)
    let response := upgradeResponse (acceptKey k)
    process (upgradeRequest host path key ++ rest) =
        .ok (.upgraded response (upgradeRequest host path key).length) ∧
      headEnd? response = some response.length ∧
        ∃ accept, responseHeader? response "Sec-WebSocket-Accept" = some accept ∧
          accept.length = 28 ∧
            Base64.decode? accept.toList =
              some (Sha1.digest (Bytes.ofString k ++ Bytes.ofString guid)) := by
  intro k response
  have hend := headEnd?_upgradeResponse k []
  rw [List.append_nil] at hend
  refine ⟨process_upgradeRequest hh hk hb hp hl rest, hend, acceptKey k,
    responseHeader?_accept k, ?_, ?_⟩
  · rw [← String.length_toList, length_toList_acceptKey]
  · rw [toList_acceptKey, Base64.decode?_encode]

/-- White space around the host and the key, and the start of a frame behind the request. -/
theorem upgradeRequest_is_answered_padded :
    let host := " example:80"
    let key := "\tdGhlIHNhbXBsZSBub25jZQ== "
    let k := String.ofList (trim key.toList)
    '\r' ∉ host.toList ∧ '\r' ∉ key.toList ∧ k = "dGhlIHNhbXBsZSBub25jZQ==" ∧
      IsWord "/chat?a=ü".toList ∧ (upgradeRequest host "/chat?a=ü" key).length ≤ maxHead ∧
        process (upgradeRequest host "/chat?a=ü" key ++ [0x81, 0x80]) =
          .ok (.upgraded (upgradeResponse (acceptKey k))
            (upgradeRequest host "/chat?a=ü" key).length) := by
  intro host key k
  have hh : '\r' ∉ host.toList := by decide
  have hk : '\r' ∉ key.toList := by decide
  have hb : trim key.toList ≠ [] := by decide
  have hp : IsWord "/chat?a=ü".toList := by decide
  have hl : (upgradeRequest host "/chat?a=ü" key).length ≤ maxHead := by decide +kernel
  exact ⟨hh, hk, by decide +kernel, hp, hl,
    (upgradeRequest_is_answered hh hk hb hp hl [0x81, 0x80]).1⟩

end Handshake
end SharedCanvas
