import SharedCanvas.Canvas.Binary
import SharedCanvas.Canvas.Json
import SharedCanvas.Proofs.Frame.Split

namespace SharedCanvas

namespace Frame

def payloadsOf (kind : Opcode) (frames : List Frame) : List Bytes :=
  (frames.filter fun f => f.kind? = some kind).map Frame.payload

@[simp] theorem payloadsOf_append (kind : Opcode) (fs gs : List Frame) :
    payloadsOf kind (fs ++ gs) = payloadsOf kind fs ++ payloadsOf kind gs := by
  simp [payloadsOf]

theorem payloadsOf_singleton (kind : Opcode) (f : Frame) :
    payloadsOf kind [f] = if f.kind? = some kind then [f.payload] else [] := by
  by_cases h : f.kind? = some kind <;> simp [payloadsOf, h]

theorem payloadsOf_cons (kind : Opcode) (f : Frame) (fs : List Frame) :
    payloadsOf kind (f :: fs) = payloadsOf kind [f] ++ payloadsOf kind fs :=
  payloadsOf_append kind [f] fs

theorem prefix_split_append (bs more : Bytes) : (split bs).1 <+: (split (bs ++ more)).1 := by
  cases h : (split bs).2.2 with
  | none =>
    rw [split_append h]
    exact List.prefix_append _ _
  | some e =>
    have hs := split_append_of_fault h more
    exact hs ▸ List.prefix_rfl

theorem split_encode_append {opcode : Opcode} {payload : Bytes} (hl : payload.length < 2 ^ 63)
    (hc : opcode.isControl = true → payload.length ≤ 125) (rest : Bytes) :
    split (encode opcode payload ++ rest) =
      (⟨true, opcode.code, false, payload⟩ :: (split rest).1, (split rest).2) := by
  have hf : opcode.isControl = true → true = true ∧ payload.length ≤ 125 := fun h => ⟨rfl, hc h⟩
  have hd := decode_encodeWith none hl hf []
  rw [List.append_nil] at hd
  exact split_append_of_whole hd rest

end Frame

/-- What the server says behind the first picture. -/
inductive Reply
  | delta (payload : Bytes)
  | pong (payload : Bytes)
  | close

namespace Reply

def opcode : Reply → Opcode
  | delta _ => .text
  | pong _ => .pong
  | close => .close

def payload : Reply → Bytes
  | delta payload | pong payload => payload
  | close => Frame.closePayload Frame.closeNormal

def bytes (r : Reply) : Bytes := Frame.encode r.opcode r.payload

theorem bytes_pong (payload : Bytes) : (pong payload).bytes = Frame.encode .pong payload := rfl

theorem bytes_close :
    close.bytes = Frame.encode .close (Frame.closePayload Frame.closeNormal) := rfl

theorem bytes_delta (payload : Bytes) : (delta payload).bytes = Frame.encode .text payload := rfl

def frame (r : Reply) : Frame := ⟨true, r.opcode.code, false, r.payload⟩

/-- The client can read the reply. -/
structure IsSound (r : Reply) : Prop where
  length : r.payload.length < 2 ^ 63
  control : r.opcode.isControl = true → r.payload.length ≤ 125
  text : r.opcode = .text → ∃ d, Delta.ofJson r.payload = .ok d

variable {r : Reply} {replies more : List Reply} {pings pings' : List Bytes}

theorem isSound_delta {payload : Bytes} {d : Delta} (hl : payload.length < 2 ^ 63)
    (hd : Delta.ofJson payload = .ok d) : (delta payload).IsSound :=
  ⟨hl, nofun, fun _ => ⟨d, hd⟩⟩

theorem isSound_pong {payload : Bytes} (hl : payload.length ≤ 125) : (pong payload).IsSound := by
  have hp : (pong payload).payload.length ≤ 125 := hl
  exact ⟨by omega, fun _ => hp, nofun⟩

theorem isSound_close : close.IsSound := ⟨by decide, fun _ => by decide, nofun⟩

theorem kind?_frame (r : Reply) : r.frame.kind? = some r.opcode := Opcode.ofCode?_code _

theorem split_flatMap (h : ∀ r ∈ replies, r.IsSound) :
    Frame.split (replies.flatMap bytes) = (replies.map frame, [], none) := by
  induction replies with
  | nil => exact Frame.split_of_incomplete (n := 2) rfl
  | cons r replies ih =>
    have hr := h r List.mem_cons_self
    have hs := ih fun r hm => h r (List.mem_cons_of_mem _ hm)
    rw [List.flatMap_cons, bytes, Frame.split_encode_append hr.length hr.control, hs]
    rfl

def pongs (replies : List Reply) : List Bytes := Frame.payloadsOf .pong (replies.map frame)

theorem pongs_append (replies more : List Reply) :
    pongs (replies ++ more) = pongs replies ++ pongs more := by
  rw [pongs, List.map_append, Frame.payloadsOf_append, pongs, pongs]

/-- What was said so far: a pong for each of the first pings, in order, and nothing after a
close. -/
structure Talk (pings : List Bytes) (replies : List Reply) : Prop where
  sound : ∀ r ∈ replies, r.IsSound
  pongs : pongs replies <+: pings
  last : close ∉ replies.dropLast

/-- Every ping was answered, and more can be said. -/
structure OpenTalk (pings : List Bytes) (replies : List Reply) : Prop where
  sound : ∀ r ∈ replies, r.IsSound
  pongs : Reply.pongs replies = pings
  going : close ∉ replies

theorem openTalk_nil : OpenTalk [] [] := ⟨nofun, rfl, List.not_mem_nil⟩

theorem OpenTalk.talk (h : OpenTalk pings replies) : Talk pings replies :=
  ⟨h.sound, h.pongs ▸ List.prefix_rfl, fun hm => h.going (List.dropLast_subset _ hm)⟩

theorem OpenTalk.append (h : OpenTalk pings replies) (h' : OpenTalk pings' more) :
    OpenTalk (pings ++ pings') (replies ++ more) := by
  refine ⟨?_, ?_, ?_⟩
  · exact fun r hr => (List.mem_append.1 hr).elim (h.sound r) (h'.sound r)
  · rw [pongs_append, h.pongs, h'.pongs]
  · exact fun hm => (List.mem_append.1 hm).elim h.going h'.going

theorem OpenTalk.append_talk (h : OpenTalk pings replies) (h' : Talk pings' more) :
    Talk (pings ++ pings') (replies ++ more) := by
  refine ⟨?_, ?_, ?_⟩
  · exact fun r hr => (List.mem_append.1 hr).elim (h.sound r) (h'.sound r)
  · rw [pongs_append, h.pongs]
    exact (List.prefix_append_right_inj pings).2 h'.pongs
  · by_cases hm : more = []
    · rw [hm, List.append_nil]
      exact h.talk.last
    · rw [List.dropLast_append_of_ne_nil hm]
      exact fun hc => (List.mem_append.1 hc).elim h.going h'.last

/-- Pings that are not answered do no harm. -/
theorem Talk.mono (h : Talk pings replies) (hp : pings <+: pings') : Talk pings' replies :=
  ⟨h.sound, h.pongs.trans hp, h.last⟩

end Reply

/-- What a server has sent to a client behind its answer: first the picture, and then deltas, a pong
for each of the first pings in order, and a close if nothing follows it. -/
structure Frame.IsStream (picture : Snapshot) (pings : List Bytes) (first : Frame)
    (frames : List Frame) : Prop where
  whole : ∀ f ∈ first :: frames, f.fin = true ∧ f.masked = false
  binary : first.kind? = some .binary
  shown : Snapshot.decode first.payload = .ok picture
  kinds : ∀ f ∈ frames, (f.kind? = some .text ∧ ∃ d, Delta.ofJson f.payload = .ok d) ∨
    f.kind? = some .pong ∨ f.kind? = some .close ∧ f.payload = closePayload 1000
  pongs : payloadsOf .pong frames <+: pings
  last : ∀ f ∈ frames.dropLast, f.kind? ≠ some .close

theorem Reply.Talk.isStream {pings : List Bytes} {replies : List Reply} {picture : Snapshot}
    (h : Talk pings replies) (hp : Snapshot.decode picture.encode = .ok picture) :
    Frame.IsStream picture pings ⟨true, Opcode.binary.code, false, picture.encode⟩
      (replies.map frame) := by
  refine ⟨?_, Opcode.ofCode?_code .binary, hp, ?_, h.pongs, ?_⟩
  · rw [List.forall_mem_cons]
    refine ⟨⟨rfl, rfl⟩, ?_⟩
    intro f hf
    obtain ⟨r, -, rfl⟩ := List.mem_map.1 hf
    exact ⟨rfl, rfl⟩
  · intro f hf
    obtain ⟨r, hr, rfl⟩ := List.mem_map.1 hf
    rw [kind?_frame]
    cases r with
    | delta payload => exact .inl ⟨rfl, (h.sound _ hr).text rfl⟩
    | pong payload => exact .inr (.inl rfl)
    | close => exact .inr (.inr ⟨rfl, rfl⟩)
  · intro f hf
    rw [← List.map_dropLast] at hf
    obtain ⟨r, hr, rfl⟩ := List.mem_map.1 hf
    rw [kind?_frame]
    cases r with
    | delta payload => nofun
    | pong payload => nofun
    | close => exact absurd hr h.last

end SharedCanvas
