import SharedCanvas.Proofs.Server.Admission

namespace SharedCanvas

namespace Handshake

/-- A whole request comes first, of so many bytes, and does not ask for a WebSocket. -/
structure IsPlain (bytes : Bytes) (request : Request) (n : Nat) : Prop where
  ends : headEnd? bytes = some n
  short : n ≤ maxHead
  parsed : Request.parse (bytes.take n) = .ok request
  plain : request.wantsWebSocket = false

theorem IsPlain.process_eq {bytes : Bytes} {request : Request} {n : Nat}
    (h : IsPlain bytes request n) : process bytes = .ok (.plain request n) := by
  rw [process, h.ends]
  dsimp only
  rw [if_neg (Nat.not_lt_of_le h.short), h.parsed]
  dsimp only
  rw [judge, h.plain]
  rfl

end Handshake

theorem Site.length_refuse_le (r : Refusal) : (refuse r).length ≤ Config.headroom := by
  cases r <;> decide +kernel

theorem Site.respond_of_read {site : Site} {request : Request} {path body : Bytes}
    (hg : Text.sameIgnoringCase request.method "GET" = true)
    (hn : Text.sameIgnoringCase request.method "HEAD" = false)
    (hp : site.resolve request.path = .ok path) (hb : site.files.read path = .ok body) :
    site.respond request = head 200 "OK" (mimeType path) body.length ++ body := by
  rw [respond, hg, hn, hp]
  dsimp only
  rw [hb]
  rfl

theorem Config.headroom_le (c : Config) : headroom ≤ c.outboxLimit :=
  Nat.le_trans (Nat.le_add_left _ _) (Nat.le_max_right _ _)

namespace Connection

/-- So much has come from the client, nothing was answered, and the socket takes everything. -/
structure Asks (c : Connection) (staged : Bytes) : Prop where
  phase : c.phase = .handshaking
  staged : c.inbox.staged = staged
  idle : c.IsIdle
  received : c.socket.received = []

def share (c : Connection) (response : Bytes) : Bytes :=
  if response.length ≤ c.outbox.limit then response else []

def verdict (c : Connection) (response : Bytes) : Reason :=
  if response.length ≤ c.outbox.limit then .flushed
  else .error (.slowConsumer response.length c.outbox.limit)

/-- The connection is over, and its peer was given so much. -/
structure IsOver (c : Connection) (received : Bytes) : Prop where
  listed : c.listed = false
  phase : c.phase = .closed
  shut : c.socket.shut = true
  received : c.socket.received = received

variable {c : Connection} {bs more : Bytes} {request : Request} {n : Nat}

theorem IsFresh.asks (h : c.IsFresh) : c.Asks [] :=
  ⟨h.phase, by rw [h.inbox]; rfl, h.idle, h.received⟩

theorem Asks.receive_eq (h : c.Asks bs) (hcap : (bs ++ more).length ≤ c.inbox.capacity)
    (canvas : Canvas) (site : Option Site) : (Visit.mk canvas c #[]).receive site more =
      ((Visit.mk canvas c #[]).setStaged (bs ++ more)).greet site := by
  rcases (Visit.mk canvas c #[]).receive_cases site (by rw [h.phase]; rfl) more with ⟨hlt, -⟩ | hr
  · rw [List.length_append] at hcap
    rw [h.staged] at hlt
    dsimp only at hlt
    omega
  · rw [hr, if_pos h.phase, h.staged]

theorem Asks.visited_of_incomplete (h : c.Asks bs)
    (hcap : (bs ++ more).length ≤ c.inbox.capacity)
    (hi : Handshake.process (bs ++ more) = .ok .incomplete) (canvas : Canvas)
    (site : Option Site) : ∃ d, c.visited canvas site more = (d, []) ∧ d.Asks (bs ++ more) ∧
      d.id = c.id ∧ d.listed = c.listed ∧ d.outbox = c.outbox ∧
      d.inbox.capacity = c.inbox.capacity := by
  let d : Connection := { c with inbox := { c.inbox with staged := bs ++ more, midUnit := true } }
  have hi : Handshake.process ((Visit.mk canvas c #[]).setStaged (bs ++ more)).conn.inbox.staged =
    .ok .incomplete := hi
  have hg : (Visit.mk canvas c #[]).receive site more = (⟨canvas, d, #[]⟩, none) := by
    rw [h.receive_eq hcap, Visit.greet, hi]
    rfl
  refine ⟨d, ?_, ⟨h.phase, rfl, ⟨h.idle.socket, h.idle.outbox⟩, h.received⟩, rfl, rfl, rfl, rfl⟩
  rw [visited, hg]
  rfl

theorem visited_of_halt {canvas : Canvas} {site : Option Site} {v : Visit} {halt : Halt}
    (hv : (Visit.mk canvas c #[]).receive site more = (v, some halt)) (hl : v.conn.listed = true)
    (ho : v.conn.outbox.frames = []) : ∃ d events,
      c.visited canvas site more = (d, v.events.toList ++ events) ∧ d.id = v.conn.id ∧
        d.IsOver v.conn.socket.received ∧
        events.filterMap (Event.closing? v.conn.id) = [halt.reason] := by
  obtain ⟨hi, hlist, hp, hs, hr, he⟩ := Room.settle_halt hl ho halt
  refine ⟨_, _, ?_, hi, ⟨hlist, hp, hs, hr⟩, he⟩
  rw [visited, hv]

/-- The bytes that complete a plain request are the last that the connection takes. -/
theorem Asks.visited_of_plain (h : c.Asks bs) (hl : c.listed = true)
    (hcap : (bs ++ more).length ≤ c.inbox.capacity)
    (hr : Handshake.process (bs ++ more) = .ok (.plain request n)) (canvas : Canvas)
    (site : Site) : ∃ d events, c.visited canvas (some site) more = (d, events) ∧ d.id = c.id ∧
      d.IsOver (c.share (site.respond request)) ∧
      events.filterMap (Event.closing? c.id) = [c.verdict (site.respond request)] := by
  let d : Connection := { c with
    inbox := { c.inbox with staged := (bs ++ more).drop n, midUnit := false } }
  let served : Event := .served c.id request.method request.path (site.respond request).length
  have hi : d.IsIdle := ⟨h.idle.socket, h.idle.outbox⟩
  have hp : d.phase.isLeaving = false := by
    show c.phase.isLeaving = false
    rw [h.phase]
    rfl
  have hr : Handshake.process ((Visit.mk canvas c #[]).setStaged (bs ++ more)).conn.inbox.staged =
    .ok (.plain request n) := hr
  have hg : (Visit.mk canvas c #[]).receive (some site) more =
      (Visit.mk canvas d #[served]).reply (site.respond request) (some .leave) := by
    rw [h.receive_eq hcap, Visit.greet, hr]
    rfl
  have hsend := hi.send_eq hp (site.respond request)
  rw [Visit.reply, Visit.send] at hg
  rw [share, verdict]
  by_cases hle : (site.respond request).length ≤ c.outbox.limit
  · rw [if_pos hle] at hsend ⊢
    rw [hsend] at hg
    obtain ⟨e, events, hv, hid, hover, hreason⟩ := visited_of_halt hg hl hi.outbox
    refine ⟨e, _, hv, hid, ⟨hover.listed, hover.phase, hover.shut, ?_⟩, ?_⟩
    · rw [hover.received]
      show c.socket.received ++ site.respond request = _
      rw [h.received, List.nil_append]
    · rw [if_pos hle]
      exact hreason
  · rw [if_neg hle] at hsend ⊢
    rw [hsend] at hg
    obtain ⟨e, events, hv, hid, hover, hreason⟩ := visited_of_halt hg hl hi.outbox
    refine ⟨e, _, hv, hid, ⟨hover.listed, hover.phase, hover.shut, ?_⟩, ?_⟩
    · exact hover.received.trans h.received
    · rw [if_neg hle]
      exact hreason

end Connection

namespace Room

variable {r : Room} {id : Nat} {c : Connection}

theorem events_receive (hm : r.member? id = some c) (bytes : Bytes) :
    (r.receive id bytes).2 = (c.visited r.canvas r.site bytes).2 := by
  rw [receive_of_member hm]
  rfl

theorem connection?_receive (hm : r.member? id = some c) (bytes : Bytes)
    (hi : (c.visited r.canvas r.site bytes).1.id = c.id) :
    (r.receive id bytes).1.connection? id = some (c.visited r.canvas r.site bytes).1 := by
  obtain ⟨hc, hl⟩ := Option.filter_eq_some_iff.1 hm
  rw [receive_eq_visited hm]
  exact connection?_put hc (hi.trans (mem_of_connection? hc).2)

theorem receiveAll_of_not_member (hm : r.member? id = none) (chunks : List Bytes) :
    (r.receiveAll id chunks).1 = r ∧
      (r.receiveAll id chunks).2.filterMap (Event.closing? id) = [] := by
  have hr : ∀ chunk, r.receive id chunk = (r, [.unclaimed id chunk.length]) := by
    intro chunk
    rw [receive, hm]
  induction chunks with
  | nil => exact ⟨rfl, rfl⟩
  | cons chunk chunks ih =>
    rw [receiveAll, hr]
    exact ⟨ih.1, ih.2⟩

/-- However a plain request is cut, its answer is given whole or not at all, and the connection is
over. -/
theorem receiveAll_of_plain {site : Site} {bs : Bytes} {request : Request} {n : Nat}
    (hm : r.member? id = some c) (hs : r.site = some site) (h : c.Asks bs)
    (hi : Handshake.process bs = .ok .incomplete) (chunks : List Bytes)
    (hcap : (bs ++ chunks.flatten).length ≤ c.inbox.capacity)
    (hr : Handshake.process (bs ++ chunks.flatten) = .ok (.plain request n)) :
    (∃ d, (r.receiveAll id chunks).1.connection? id = some d ∧
        d.IsOver (c.share (site.respond request))) ∧
      (r.receiveAll id chunks).2.filterMap (Event.closing? id) =
        [c.verdict (site.respond request)] := by
  -- The induction is on the chunks. Until the request is complete the connection only keeps them;
  -- the chunk that completes it ends the connection, and the others come too late.
  induction chunks generalizing r c bs with
  | nil =>
    rw [List.flatten_nil, List.append_nil, hi] at hr
    simp at hr
  | cons chunk chunks ih =>
    obtain ⟨hc, hl⟩ := Option.filter_eq_some_iff.1 hm
    have hid := (mem_of_connection? hc).2
    rw [List.flatten_cons, ← List.append_assoc] at hcap hr
    have hpart : (bs ++ chunk).length ≤ c.inbox.capacity := by
      rw [List.length_append] at hcap
      omega
    rw [receiveAll]
    dsimp only
    rw [List.filterMap_append]
    by_cases hq : Handshake.process (bs ++ chunk) = .ok .incomplete
    · obtain ⟨d, hv, hd, hdi, hdl, hdo, hdc⟩ := h.visited_of_incomplete hpart hq r.canvas r.site
      have hcon := connection?_receive hm chunk (by rw [hv]; exact hdi)
      have hev := events_receive hm chunk
      rw [hv] at hcon hev
      have hdm : (r.receive id chunk).1.member? id = some d := by
        rw [member?, hcon, Option.filter_some, if_pos (hdl.trans hl)]
      have hrest := ih hdm ((site_receive r id chunk).trans hs) hd hq (hdc ▸ hcap) hr
      rw [Connection.share, Connection.verdict, hdo] at hrest
      rw [hev]
      exact hrest
    · rw [Handshake.process_append hq] at hr
      obtain ⟨d, events, hv, hdi, hover, hreason⟩ :=
        h.visited_of_plain hl hpart hr r.canvas site
      rw [← hs] at hv
      have hcon := connection?_receive hm chunk (by rw [hv]; exact hdi)
      have hev := events_receive hm chunk
      rw [hv] at hcon hev
      have hdm : (r.receive id chunk).1.member? id = none := by
        rw [member?, hcon, Option.filter_some, hover.listed]
        rfl
      obtain ⟨hroom, hquiet⟩ := receiveAll_of_not_member hdm chunks
      rw [hroom, hquiet, hev, List.append_nil, ← hid]
      exact ⟨⟨d, hid ▸ hcon, hover⟩, hreason⟩

theorem withFiles_self {site : Site} (h : r.site = some site) : r.withFiles site.files = r := by
  obtain ⟨canvas, connections, maxClients, recvCapacity, outboxLimit, files⟩ := r
  change files = some site at h
  rw [h]
  rfl

end Room

namespace Server

section
variable {h : Host} {config : Config} {fs : FileSystem} {server s : Server} {site : Site}
  {id n : Nat} {c : Connection} {chunks : List Bytes} {request : Request}

theorem receiveAll_of_plain (hs : start h config fs = .ok server) (ha : Acts server s)
    (hd : config.staticDir.map Bytes.ofString = some site.root)
    (hm : s.room.member? id = some c) (hf : c.IsFresh)
    (hcap : chunks.flatten.length ≤ config.recvBuffer)
    (hr : Handshake.IsPlain chunks.flatten request n) :
    (∃ d, ((s.room.withFiles site.files).receiveAll id chunks).1.connection? id = some d ∧
        d.IsOver (if (site.respond request).length ≤ config.outboxLimit then site.respond request
          else [])) ∧
      ((s.room.withFiles site.files).receiveAll id chunks).2.filterMap (Event.closing? id) =
        [if (site.respond request).length ≤ config.outboxLimit then .flushed
          else .error (.slowConsumer (site.respond request).length config.outboxLimit)] := by
  have hw := ha.welcomes (welcomes_of_start hs)
  have hc := hw.waits c (Room.mem_of_member? hm).1
  have hsite : (s.room.withFiles site.files).site = some site := by
    obtain ⟨old, ho, hroot⟩ := Option.map_eq_some_iff.1 (hw.site.trans hd)
    show s.room.site.map (fun old => Site.mk old.root site.files) = some site
    rw [ho, Option.map_some, hroot]
  have hrun := Room.receiveAll_of_plain (r := s.room.withFiles site.files) hm hsite hf.asks rfl
    chunks (hc.capacity.symm ▸ hcap) hr.process_eq
  rw [Connection.share, Connection.verdict, hc.limit] at hrun
  exact hrun

theorem exists_fresh_of_start (hs : start h config fs = .ok server) : ∃ s c, Acts server s ∧
    s.room.member? 1 = some c ∧ c.IsFresh ∧ s.room.site = server.room.site := by
  have hroom := room_connect_of_start hs "peer" (show Socket.fresh.unwatchable = none from rfl)
  refine ⟨(server.connect "peer" .fresh).1, { Connection.new 1 "peer" .fresh config.recvBuffer
    config.outboxLimit with listed := true }, .of_run (server.run_connect _ rfl), ?_,
    ⟨rfl, rfl, ⟨⟨rfl, rfl, rfl⟩, rfl⟩, rfl⟩, ?_⟩
  · rw [hroom]
    rfl
  · rw [hroom]

/-- A client that asks a server for a file and reads everything gets the whole answer exactly if it
is not longer than may wait for the client, however its request is cut and whatever the files are by
then; a longer answer is dropped before any of it is sent. A refusal is never too long. Either way
the connection is closed and out of the registry, and the reason is reported. -/
theorem answered_iff (hs : start h config fs = .ok server) (ha : Acts server s)
    (hd : config.staticDir.map Bytes.ofString = some site.root)
    (hm : s.room.member? id = some c) (hf : c.IsFresh)
    (hcap : chunks.flatten.length ≤ config.recvBuffer)
    (hr : Handshake.IsPlain chunks.flatten request n) :
    ((s.room.withFiles site.files).receiveAll id chunks).1.member? id = none ∧
    (∃ d, ((s.room.withFiles site.files).receiveAll id chunks).1.connection? id = some d ∧
      d.phase = .closed ∧ d.socket.shut = true ∧
      (d.socket.received = site.respond request ↔
        (site.respond request).length ≤ config.outboxLimit) ∧
      (config.outboxLimit < (site.respond request).length → d.socket.received = [])) ∧
    ((s.room.withFiles site.files).receiveAll id chunks).2.filterMap (Event.closing? id) =
      [if (site.respond request).length ≤ config.outboxLimit then .flushed
        else .error (.slowConsumer (site.respond request).length config.outboxLimit)] ∧
    ∀ refusal, site.respond request = Site.refuse refusal →
      (site.respond request).length ≤ config.outboxLimit := by
  obtain ⟨⟨d, hcon, hover⟩, hreason⟩ := receiveAll_of_plain hs ha hd hm hf hcap hr
  refine ⟨?_, ⟨d, hcon, hover.phase, hover.shut, ⟨?_, ?_⟩, ?_⟩, hreason, ?_⟩
  · rw [Room.member?, hcon, Option.filter_some, hover.listed]
    rfl
  · intro hall
    by_contra hlt
    -- Nothing was sent, so the answer would have to be empty, and then it would fit.
    rw [hover.received, if_neg hlt] at hall
    rw [← hall] at hlt
    exact hlt (Nat.zero_le _)
  · intro hle
    rw [hover.received, if_pos hle]
  · intro hlt
    rw [hover.received, if_neg (Nat.not_le_of_lt hlt)]
  · intro refusal hrefuse
    rw [hrefuse]
    exact Nat.le_trans (Site.length_refuse_le refusal) config.headroom_le

end

/-- A small page, and a request that is cut in its first line. -/
theorem answered_iff_page : ∃ (config : Config) (site : Site) (server s : Server) (c d : Connection)
    (chunks : List Bytes) (request : Request), config.check = .ok () ∧
      config.staticDir.map Bytes.ofString = some site.root ∧
      start .unprivileged config site.files = .ok server ∧ Acts server s ∧
      s.room.member? 1 = some c ∧ c.IsFresh ∧ chunks.length = 2 ∧
      Handshake.IsPlain chunks.flatten request chunks.flatten.length ∧
      (s.room.receiveAll 1 chunks).1.member? 1 = none ∧
      (s.room.receiveAll 1 chunks).1.connection? 1 = some d ∧ d.socket.received =
        Site.head 200 "OK" "text/html; charset=utf-8" 2 ++ Bytes.ofString "hi" := by
  let config : Config := { Config.standard with staticDir := some "/w", maxOutbox := 0 }
  let site : Site := ⟨Bytes.ofString "/w", ⟨[([Bytes.ofString "w"], .directory),
    ([Bytes.ofString "w", Bytes.ofString "index.html"], .file (Bytes.ofString "hi"))]⟩⟩
  let request : Request := ⟨"GET", "/", "HTTP/1.1", []⟩
  let chunks : List Bytes := [Bytes.ofString "GET / HT", Bytes.ofString "TP/1.1\r\n\r\n"]
  obtain ⟨server, hs, hsite⟩ : ∃ server, start .unprivileged config site.files = .ok server ∧
      server.room.site = some site := ⟨_, rfl, rfl⟩
  obtain ⟨s, c, ha, hm, hf, hserver⟩ := exists_fresh_of_start hs
  have hfiles := Room.withFiles_self (hserver.trans hsite)
  have hr : Handshake.IsPlain chunks.flatten request chunks.flatten.length :=
    ⟨by decide +kernel, by decide +kernel, by decide +kernel, by decide +kernel⟩
  have hpage : site.respond request =
      Site.head 200 "OK" "text/html; charset=utf-8" 2 ++ Bytes.ofString "hi" := by decide +kernel
  have hcap : chunks.flatten.length ≤ config.recvBuffer := by decide +kernel
  have hle : (site.respond request).length ≤ config.outboxLimit := by
    rw [hpage]
    exact Nat.le_trans (by decide +kernel) config.headroom_le
  have hroot : config.staticDir.map Bytes.ofString = some site.root := rfl
  obtain ⟨hgone, ⟨d, hd, -, -, hall, -⟩, -⟩ := answered_iff hs ha hroot hm hf hcap hr
  rw [hfiles] at hgone hd
  exact ⟨config, site, server, s, c, d, chunks, request, rfl, rfl, hs, ha, hm, hf, rfl, hr,
    hgone, hd, (hall.2 hle).trans hpage⟩

/-- A server whose settings are in order gives nothing of a file to a client that reads everything:
the file has 70000 bytes, and the canvas one cell. -/
theorem ready_client_gets_nothing : ∃ (config : Config) (site : Site) (server s : Server)
    (c d : Connection) (bytes : Bytes) (request : Request), config.check = .ok () ∧
      config.staticDir.map Bytes.ofString = some site.root ∧
      start .unprivileged config site.files = .ok server ∧ Acts server s ∧
      s.room.member? 1 = some c ∧ c.IsFresh ∧ bytes.length ≤ config.recvBuffer ∧
      Handshake.IsPlain bytes request bytes.length ∧
      (s.room.receiveAll 1 [bytes]).1.connection? 1 = some d ∧ d.phase = .closed ∧
      d.socket.received = [] ∧ 70000 ≤ (site.respond request).length := by
  let config : Config := { Config.standard with
    width := 1, height := 1, staticDir := some "/w", maxOutbox := 0 }
  obtain ⟨body, hbody⟩ : ∃ body : Bytes, body.length = 70000 :=
    ⟨List.replicate 70000 0x61, List.length_replicate⟩
  let site : Site := ⟨Bytes.ofString "/w", ⟨[([Bytes.ofString "w"], .directory),
    ([Bytes.ofString "w", Bytes.ofString "big.bin"], .file body)]⟩⟩
  let request : Request := ⟨"GET", "/big.bin", "HTTP/1.1", []⟩
  let bytes := Bytes.ofString "GET /big.bin HTTP/1.1\r\n\r\n"
  obtain ⟨server, hs, hsite⟩ : ∃ server, start .unprivileged config site.files = .ok server ∧
      server.room.site = some site := ⟨_, rfl, rfl⟩
  obtain ⟨s, c, ha, hm, hf, hserver⟩ := exists_fresh_of_start hs
  have hfiles := Room.withFiles_self (hserver.trans hsite)
  have hr : Handshake.IsPlain bytes request bytes.length :=
    ⟨by decide +kernel, by decide +kernel, by decide +kernel, by decide +kernel⟩
  have hcap : [bytes].flatten.length ≤ config.recvBuffer := by decide +kernel
  have hp : site.resolve "/big.bin" = .ok (Bytes.ofString "/w/big.bin") := by rfl
  have hb : site.files.read (Bytes.ofString "/w/big.bin") = .ok body := by rfl
  have hlong : 70000 ≤ (site.respond request).length := by
    rw [Site.respond_of_read (by decide +kernel) (by decide +kernel) hp hb,
      List.length_append, hbody]
    exact Nat.le_add_left _ _
  have hlt : ¬ (site.respond request).length ≤ config.outboxLimit := by
    have hlimit : config.outboxLimit = 65543 := by decide
    omega
  have hroot : config.staticDir.map Bytes.ofString = some site.root := rfl
  obtain ⟨⟨d, hd, hover⟩, -⟩ := receiveAll_of_plain hs ha hroot hm hf hcap hr
  rw [hfiles] at hd
  exact ⟨config, site, server, s, c, d, bytes, request, rfl, rfl, hs, ha, hm, hf, hcap, hr, hd,
    hover.phase, hover.received.trans (if_neg hlt), hlong⟩

end Server

end SharedCanvas
