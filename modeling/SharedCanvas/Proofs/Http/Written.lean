import SharedCanvas.Http.Request
import SharedCanvas.Proofs.Json.Written
import SharedCanvas.Proofs.Text.Cut
import Mathlib.Data.List.Forall2

namespace SharedCanvas

namespace Text

def SameLetter (c d : Char) : Prop :=
  c = d ∨ c.isUpper ∧ d.toNat = c.toNat + 32 ∨ d.isUpper ∧ c.toNat = d.toNat + 32

theorem isUpper_iff (c : Char) : c.isUpper = true ↔ 65 ≤ c.toNat ∧ c.toNat ≤ 90 :=
  decide_eq_true_iff

theorem toNat_toLower (c : Char) :
    c.toLower.toNat = if c.isUpper then c.toNat + 32 else c.toNat := by
  unfold Char.toLower
  split
  · rename_i hc
    have hu : c.isUpper = true := (isUpper_iff c).2 hc
    have hn : c.val.toNat + 32 < 2 ^ 32 := by
      have := ((isUpper_iff c).1 hu).2
      rw [← Char.toNat_val] at this
      omega
    rw [if_pos hu]
    exact (UInt32.toNat_add ..).trans (Nat.mod_eq_of_lt hn)
  · rename_i hc
    rw [if_neg]
    exact fun hu => hc ((isUpper_iff c).1 hu)

theorem toLower_eq_iff {c d : Char} : c.toLower = d.toLower ↔ SameLetter c d := by
  have hc := isUpper_iff c
  have hd := isUpper_iff d
  rw [← Char.toNat_inj, toNat_toLower, toNat_toLower, SameLetter, ← Char.toNat_inj]
  split <;> split <;> grind

/-- The same text, but for the case of its ASCII letters. -/
def SameText (a b : String) : Prop := List.Forall₂ SameLetter a.toList b.toList

theorem sameIgnoringCase_iff {a b : String} : sameIgnoringCase a b = true ↔ SameText a b := by
  rw [sameIgnoringCase, beq_iff_eq, ← List.forall₂_eq_eq_eq, List.forall₂_map_left_iff,
    List.forall₂_map_right_iff]
  simp only [toLower_eq_iff, SameText]

end Text

namespace Request

open Text

/-- A name and a value that can stand on a line of a head. -/
structure IsHeader (h : String × String) : Prop where
  name_ne : h.1 ≠ ""
  name : IsTrimmed h.1.toList
  value : IsTrimmed h.2.toList
  colon : ':' ∉ h.1.toList
  name_whole : ¬ crlf <:+: h.1.toList
  value_whole : ¬ crlf <:+: h.2.toList

structure IsWellFormed (r : Request) : Prop where
  method : IsWord r.method.toList
  path : IsWord r.path.toList
  version : IsWord r.version.toList
  http : "HTTP/1.".toList <+: r.version.toList
  count : r.headers.length ≤ maxHeaders
  headers : ∀ h ∈ r.headers, IsHeader h

section
variable {line : List Char} {lines : List (List Char)} {count : Nat}

theorem readRequestLine_eq_ok_iff {method path version : String} :
    readRequestLine line = .ok (method, path, version) ↔
      words line = [method.toList, path.toList, version.toList] ∧
        "HTTP/1.".toList <+: version.toList := by
  unfold readRequestLine
  split
  · rename_i m p v hw
    rw [hw]
    split
    · rename_i hv
      rw [List.isPrefixOf_iff_prefix] at hv
      constructor
      · intro h
        simp only [Except.ok.injEq, Prod.mk.injEq] at h
        obtain ⟨rfl, rfl, rfl⟩ := h
        simpa only [String.toList_ofList, true_and] using hv
      · rintro ⟨h, -⟩
        simp only [List.cons.injEq, and_true] at h
        obtain ⟨rfl, rfl, rfl⟩ := h
        simp only [String.ofList_toList]
    · rename_i hv
      rw [List.isPrefixOf_iff_prefix] at hv
      refine ⟨nofun, ?_⟩
      rintro ⟨h, hp⟩
      simp only [List.cons.injEq, and_true] at h
      exact absurd (h.2.2 ▸ hp) hv
  · rename_i hw
    refine ⟨nofun, ?_⟩
    rintro ⟨h, -⟩
    exact absurd h (hw _ _ _)

theorem isHeader_of_readHeader {h : String × String} (hl : ¬ crlf <:+: line)
    (hr : readHeader line = .ok h) : IsHeader h := by
  unfold readHeader at hr
  split at hr
  · simp at hr
  · rename_i c value hv
    dsimp only at hr
    split at hr
    · simp at hr
    · rename_i hn
      rw [Except.ok.injEq] at hr
      have hname := infix_trim (line.takeWhile (· != ':'))
      have hvalue : trim value <:+: c :: value :=
        (infix_trim value).trans (List.suffix_cons c value).isInfix
      rw [← hv] at hvalue
      rw [← hr]
      refine ⟨?_, ?_, ?_, ?_, ?_, ?_⟩ <;> simp only [String.toList_ofList]
      · rw [ne_eq, String.ofList_eq_empty_iff]
        simpa using hn
      · exact isTrimmed_trim _
      · exact isTrimmed_trim _
      · intro hc
        simpa using List.mem_takeWhile_imp (hname.subset hc)
      · exact fun hc => hl ((hc.trans hname).trans (List.takeWhile_prefix _).isInfix)
      · exact fun hc => hl ((hc.trans hvalue).trans (List.dropWhile_suffix _).isInfix)

theorem readHeaders_cons_eq_ok_iff {hs : List (String × String)} (hn : line.isEmpty = false) :
    readHeaders count (line :: lines) = .ok hs ↔ count ≠ maxHeaders ∧
      ∃ h hs', readHeader line = .ok h ∧ readHeaders (count + 1) lines = .ok hs' ∧
        hs = h :: hs' := by
  rw [readHeaders, if_neg (by simp [hn])]
  by_cases hm : count = maxHeaders
  · simp [hm]
  · rw [if_neg (by simpa using hm)]
    cases readHeader line with
    | error e => simp
    | ok h =>
      cases readHeaders (count + 1) lines with
      | error e => simp
      | ok hs' => simp [hm, eq_comm]

theorem readHeaders_eq_ok_iff {hs : List (String × String)} (hc : count ≤ maxHeaders) :
    readHeaders count lines = .ok hs ↔
      List.Forall₂ (fun line h => readHeader line = .ok h) (lines.filter fun l => !l.isEmpty) hs ∧
        count + hs.length ≤ maxHeaders := by
  induction lines generalizing count hs with
  | nil =>
    rw [readHeaders, List.filter_nil, List.forall₂_nil_left_iff, Except.ok.injEq, eq_comm]
    refine ⟨fun h => ⟨h, by simpa [h] using hc⟩, fun h => h.1⟩
  | cons line lines ih =>
    cases hn : line.isEmpty with
    | true => rw [readHeaders, if_pos hn, ih hc, List.filter_cons_of_neg (by simp [hn])]
    | false =>
      rw [readHeaders_cons_eq_ok_iff hn, List.filter_cons_of_pos (by simp [hn]),
        List.forall₂_cons_left_iff]
      constructor
      · rintro ⟨hm, h, hs, hr, hrs, rfl⟩
        obtain ⟨hf, hl⟩ := (ih (by omega)).1 hrs
        exact ⟨⟨h, hs, hr, hf, rfl⟩, by rw [List.length_cons]; omega⟩
      · rintro ⟨⟨h, hs, hr, hf, rfl⟩, hl⟩
        rw [List.length_cons] at hl
        exact ⟨by omega, h, hs, hr, (ih (by omega)).2 ⟨hf, by omega⟩, rfl⟩

theorem isHeader_of_readHeaders {hs : List (String × String)}
    (h : List.Forall₂ (fun line h => readHeader line = .ok h) lines hs)
    (hl : ∀ l ∈ lines, ¬ crlf <:+: l) : ∀ h ∈ hs, IsHeader h := by
  induction h with
  | nil => simp
  | cons hr _ ih =>
    rw [List.forall_mem_cons] at hl ⊢
    exact ⟨isHeader_of_readHeader hl.1 hr, ih hl.2⟩

end

theorem parse_eq_ok_iff {head : Bytes} {r : Request} : parse head = .ok r ↔
    ∃ text line lines, Bytes.toString? head = some text ∧ Text.lines text.toList = line :: lines ∧
      readRequestLine line = .ok (r.method, r.path, r.version) ∧
        readHeaders 0 lines = .ok r.headers := by
  unfold parse
  constructor
  · intro h
    split at h
    · simp at h
    · rename_i text ht
      split at h
      · simp at h
      · rename_i line lines hl
        split at h
        · simp at h
        · rename_i method path version hr
          split at h
          · simp at h
          · rename_i headers hh
            rw [Except.ok.injEq] at h
            exact ⟨text, line, lines, ht, hl, h ▸ hr, h ▸ hh⟩
  · rintro ⟨text, line, lines, ht, hl, hr, hh⟩
    simp only [ht, hl, hr, hh]

theorem isWellFormed_of_parse {head : Bytes} {r : Request} (h : parse head = .ok r) :
    r.IsWellFormed := by
  obtain ⟨text, line, lines, -, hl, hr, hh⟩ := parse_eq_ok_iff.1 h
  obtain ⟨hw, hv⟩ := readRequestLine_eq_ok_iff.1 hr
  obtain ⟨hf, hc⟩ := (readHeaders_eq_ok_iff (Nat.zero_le _)).1 hh
  have hword : ∀ w ∈ [r.method.toList, r.path.toList, r.version.toList], IsWord w :=
    fun w hm => isWord_of_mem_words (hw ▸ hm)
  simp only [List.forall_mem_cons] at hword
  refine ⟨hword.1, hword.2.1, hword.2.2.1, hv, by omega, ?_⟩
  refine isHeader_of_readHeaders hf ?_
  intro l hm
  exact not_infix_of_mem_lines (hl ▸ List.mem_cons_of_mem line (List.mem_filter.1 hm).1)

/-- White space that can stand within a line. -/
structure IsPadding (cs : List Char) : Prop where
  gap : IsGap cs
  plain : '\r' ∉ cs

theorem isPadding_of_blanks {cs : List Char} (h : ∀ c ∈ cs, c = ' ' ∨ c = '\t') : IsPadding cs := by
  constructor
  · intro c hc
    rcases h c hc with rfl | rfl <;> decide
  · intro hc
    rcases h _ hc with hc | hc <;> exact absurd hc (by decide)

/-- The line says the header. -/
inductive HeaderLine : String × String → List Char → Prop
  | mk {name value : String} {a b c d : List Char} (ha : IsPadding a) (hb : IsPadding b)
      (hc : IsPadding c) (hd : IsPadding d) :
      HeaderLine (name, value) (a ++ name.toList ++ b ++ ':' :: (c ++ value.toList ++ d))

/-- The lines say the headers. Empty lines may stand among them. -/
inductive HeaderLines : List (String × String) → List (List Char) → Prop
  | nil : HeaderLines [] []
  | empty {hs ls} (h : HeaderLines hs ls) : HeaderLines hs ([] :: ls)
  | cons {h hs l ls} (hl : HeaderLine h l) (hls : HeaderLines hs ls) :
      HeaderLines (h :: hs) (l :: ls)

def requestLine (r : Request) (a b : List Char) : List Char :=
  r.method.toList ++ a ++ r.path.toList ++ b ++ r.version.toList

/-- The text is one way to write the request: its lines, each with its end, and an empty line. -/
inductive Written (r : Request) : List Char → Prop
  | mk {a b : List Char} {ls : List (List Char)} (ha : IsPadding a) (ha' : a ≠ [])
      (hb : IsPadding b) (hb' : b ≠ []) (hls : HeaderLines r.headers ls) :
      Written r ((r.requestLine a b :: ls).flatMap (· ++ crlf) ++ crlf)

section
variable {r : Request} {h : String × String} {line : List Char}

theorem IsPadding.isLine {cs : List Char} (h : IsPadding cs) : IsLine cs :=
  isLine_of_not_mem h.plain

theorem HeaderLine.isLine (hl : HeaderLine h line) (hh : IsHeader h) : IsLine line := by
  cases hl with
  | mk ha hb hc hd =>
    have hcolon : IsLine [':'] := isLine_of_not_mem (by decide)
    have hname := ((ha.isLine.append (hh.name.isLine hh.name_whole)).append hb.isLine)
    have hvalue := ((hc.isLine.append (hh.value.isLine hh.value_whole)).append hd.isLine)
    exact hname.append (hcolon.append hvalue)

theorem HeaderLine.readHeader_eq (hl : HeaderLine h line) (hh : IsHeader h) :
    readHeader line = .ok h := by
  cases hl with
  | @mk name value a b c d ha hb hc hd =>
    have hpad : ∀ {cs}, IsPadding cs → ':' ∉ cs :=
      fun hp hm => absurd (hp.gap _ hm) (by decide)
    have hcolon : ':' ∉ a ++ name.toList ++ b := by
      simp only [List.mem_append, not_or]
      exact ⟨⟨hpad ha, hh.colon⟩, hpad hb⟩
    have hbefore : ∀ x ∈ a ++ name.toList ++ b, (x != ':') = true := by
      rintro x hx
      rw [bne_iff_ne]
      rintro rfl
      exact hcolon hx
    have hne : (trim (a ++ name.toList ++ b)).isEmpty = false := by
      rw [trim_append ha.gap hh.name hb.gap, List.isEmpty_eq_false_iff, ne_eq,
        String.toList_eq_nil_iff]
      exact hh.name_ne
    rw [readHeader, List.dropWhile_append_of_pos hbefore, List.takeWhile_append_of_pos hbefore,
      List.dropWhile_cons_of_neg (by decide), List.takeWhile_cons_of_neg (by decide),
      List.append_nil]
    dsimp only
    rw [hne, trim_append ha.gap hh.name hb.gap, trim_append hc.gap hh.value hd.gap]
    simp only [String.ofList_toList]
    rfl

theorem HeaderLines.isLine {hs : List (String × String)} {ls : List (List Char)}
    (h : HeaderLines hs ls) (hh : ∀ h ∈ hs, IsHeader h) : ∀ l ∈ ls, IsLine l := by
  induction h with
  | nil => simp
  | empty _ ih =>
    rw [List.forall_mem_cons]
    exact ⟨isLine_of_not_mem (by simp), ih hh⟩
  | cons hl _ ih =>
    rw [List.forall_mem_cons] at hh ⊢
    exact ⟨hl.isLine hh.1, ih hh.2⟩

theorem HeaderLines.reads {hs : List (String × String)} {ls : List (List Char)}
    (h : HeaderLines hs ls) (hh : ∀ h ∈ hs, IsHeader h) :
    List.Forall₂ (fun line h => readHeader line = .ok h) (ls.filter fun l => !l.isEmpty) hs := by
  induction h with
  | nil => exact .nil
  | empty _ ih => exact ih hh
  | @cons h hs l ls hl _ ih =>
    rw [List.forall_mem_cons] at hh
    have hr := hl.readHeader_eq hh.1
    have hn : l.isEmpty = false := by
      cases l with
      | nil => simp [readHeader] at hr
      | cons c l => rfl
    rw [List.filter_cons_of_pos (by simp [hn])]
    exact .cons hr (ih hh.2)

/-- The lines of headers are read, with the end of the last one and an empty line behind them. -/
theorem HeaderLines.readHeaders_eq {hs : List (String × String)} {ls : List (List Char)}
    (h : HeaderLines hs ls) (hh : ∀ h ∈ hs, IsHeader h) (hc : hs.length ≤ maxHeaders) :
    readHeaders 0 (ls ++ [[], []]) = .ok hs := by
  have hf := h.reads hh
  rw [readHeaders_eq_ok_iff (Nat.zero_le _), List.filter_append]
  exact ⟨by simpa using hf, by simpa using hc⟩

theorem words_requestLine {a b : List Char} (hr : r.IsWellFormed) (ha : IsGap a) (ha' : a ≠ [])
    (hb : IsGap b) (hb' : b ≠ []) :
    words (r.requestLine a b) = [r.method.toList, r.path.toList, r.version.toList] := by
  obtain ⟨c, a, rfl⟩ := List.exists_cons_of_ne_nil ha'
  obtain ⟨d, b, rfl⟩ := List.exists_cons_of_ne_nil hb'
  rw [IsGap, List.forall_mem_cons] at ha hb
  simp only [requestLine, List.append_assoc, List.cons_append]
  rw [words_append_gap hr.method ha.1, words_gap_append ha.2, words_append_gap hr.path hb.1,
    words_gap_append hb.2, hr.version.words_eq]

theorem Written.parse_eq {text : List Char} (h : r.Written text) (hr : r.IsWellFormed) :
    parse (Bytes.ofString (String.ofList text)) = .ok r := by
  cases h with
  | @mk a b ls ha ha' hb hb' hls =>
    have hline : IsLine (r.requestLine a b) :=
      (((hr.method.isLine.append ha.isLine).append hr.path.isLine).append hb.isLine).append
        hr.version.isLine
    have hlines := List.forall_mem_cons.2 ⟨hline, hls.isLine hr.headers⟩
    refine parse_eq_ok_iff.2 ⟨_, r.requestLine a b, ls ++ [[], []], Bytes.toString?_ofString _,
      ?_, ?_, ?_⟩
    · rw [String.toList_ofList, lines_flatMap hlines]
      rfl
    · exact readRequestLine_eq_ok_iff.2 ⟨words_requestLine hr ha.gap ha' hb.gap hb', hr.http⟩
    · exact hls.readHeaders_eq hr.headers hr.count

/-- The first header of a name is found, if there is one. -/
theorem header?_eq_some_iff {name value : String} : r.header? name = some value ↔
    ∃ before own after, r.headers = before ++ (own, value) :: after ∧
      SameText own name ∧ ∀ h ∈ before, ¬ SameText h.1 name := by
  simp only [header?, Option.map_eq_some_iff, ← sameIgnoringCase_iff]
  constructor
  · rintro ⟨⟨own, v⟩, hf, rfl⟩
    obtain ⟨hs, before, after, he, hb⟩ := List.find?_eq_some_iff_append.1 hf
    exact ⟨before, own, after, he, hs, by simpa using hb⟩
  · rintro ⟨before, own, after, he, hs, hb⟩
    refine ⟨(own, value), List.find?_eq_some_iff_append.2 ⟨hs, before, after, he, ?_⟩, rfl⟩
    simpa using hb

theorem header?_eq_none_iff {name : String} :
    r.header? name = none ↔ ∀ h ∈ r.headers, ¬ SameText h.1 name := by
  simp [header?, ← sameIgnoringCase_iff]

end

def plainLine (h : String × String) : List Char := h.1.toList ++ ':' :: ' ' :: h.2.toList

def trimmed (h : String × String) : String × String := (h.1, String.ofList (trim h.2.toList))

/-- A header that is written plainly on a line of its own. -/
structure IsPlain (h : String × String) : Prop where
  name : IsWord h.1.toList
  colon : ':' ∉ h.1.toList
  value : '\r' ∉ h.2.toList

section
variable {h : String × String} {hs : List (String × String)}

theorem isPlain_of {name value : String} (hn : IsWord name.toList) (hc : ':' ∉ name.toList)
    (hv : '\r' ∉ value.toList) : IsPlain (name, value) := ⟨hn, hc, hv⟩

theorem IsPlain.isHeader (hp : IsPlain h) : IsHeader (trimmed h) where
  name_ne := fun hn => hp.name.ne_nil (String.toList_eq_nil_iff.2 hn)
  name := hp.name.isTrimmed
  value := by
    rw [trimmed, String.toList_ofList]
    exact isTrimmed_trim _
  colon := hp.colon
  name_whole := hp.name.isLine.whole
  value_whole := by
    rw [trimmed, String.toList_ofList]
    exact fun hi => (isLine_of_not_mem hp.value).whole (hi.trans (infix_trim _))

theorem IsPlain.headerLine (hp : IsPlain h) : HeaderLine (trimmed h) (plainLine h) := by
  obtain ⟨l, r, hl, hr, he⟩ := exists_trim h.2.toList
  have hv := hp.value
  rw [he] at hv
  simp only [List.mem_append, not_or] at hv
  have hn : IsPadding [] := isPadding_of_blanks (by simp)
  have hs : IsPadding (' ' :: l) := by
    refine ⟨List.forall_mem_cons.2 ⟨by decide, hl⟩, ?_⟩
    rw [List.mem_cons, not_or]
    exact ⟨by decide, hv.1.1⟩
  have hline : HeaderLine (h.1, (trimmed h).2)
      ([] ++ h.1.toList ++ [] ++ ':' :: (' ' :: l ++ (trimmed h).2.toList ++ r)) :=
    .mk hn hn hs ⟨hr, hv.2⟩
  simp only [trimmed, String.toList_ofList, List.nil_append, List.append_nil, List.cons_append,
    ← he] at hline
  exact hline

theorem headerLines_plain (hp : ∀ h ∈ hs, IsPlain h) :
    HeaderLines (hs.map trimmed) (hs.map plainLine) := by
  induction hs with
  | nil => exact .nil
  | cons h hs ih =>
    rw [List.forall_mem_cons] at hp
    exact .cons hp.1.headerLine (ih hp.2)

theorem IsPlain.cr_not_mem (hp : IsPlain h) : '\r' ∉ plainLine h := by
  simp only [plainLine, List.mem_append, List.mem_cons, not_or]
  exact ⟨hp.name.cr_not_mem, by decide, by decide, hp.value⟩

end

/-- What is read from a head is well formed. A well-formed request is read from every text that
writes it, and in what is read the first header of a name is found. -/
theorem parse_reads_written :
    (∀ (head : Bytes) (r : Request), parse head = .ok r → r.IsWellFormed) ∧
      ∀ (r : Request) (text : List Char), r.IsWellFormed → r.Written text →
        parse (Bytes.ofString (String.ofList text)) = .ok r ∧
          ∀ name, (r.header? name = none ↔ ∀ h ∈ r.headers, ¬ SameText h.1 name) ∧
            ∀ value, r.header? name = some value ↔
              ∃ before own after, r.headers = before ++ (own, value) :: after ∧
                SameText own name ∧ ∀ h ∈ before, ¬ SameText h.1 name :=
  ⟨fun _ _ h => isWellFormed_of_parse h, fun _ _ hr hw =>
    ⟨hw.parse_eq hr, fun _ => ⟨header?_eq_none_iff, fun _ => header?_eq_some_iff⟩⟩⟩

/-- A lone CR within a value, a name beyond ASCII, a header without a value, empty lines, and a
header that comes twice. -/
theorem parse_reads_written_four_headers :
    let r : Request := ⟨"GET", "/a?b", "HTTP/1.1",
      [("X-Größe", "a:\rb"), ("Accept", ""), ("HOST", "h"), ("host", "g")]⟩
    let text := "GET \t /a?b\tHTTP/1.1\r\n\r\n X-Größe\t: a:\rb \r\nAccept:\r\n\r\n\r\n".toList ++
      "HOST:h\r\nhost : g\r\n\r\n".toList
    r.IsWellFormed ∧ r.Written text ∧ parse (Bytes.ofString (String.ofList text)) = .ok r ∧
      r.header? "Host" = some "h" := by
  intro r text
  have hr : r.IsWellFormed :=
    parse_reads_written.1 (Bytes.ofString (String.ofList text)) r (by decide +kernel)
  have hn : IsPadding [] := isPadding_of_blanks (by simp)
  have hs : IsPadding [' '] := isPadding_of_blanks (by simp)
  have ht : IsPadding ['\t'] := isPadding_of_blanks (by simp)
  have hm : IsPadding [' ', '\t', ' '] := isPadding_of_blanks (by simp)
  have hls : HeaderLines r.headers ([] :: _) :=
    .empty (.cons (.mk hs ht hs hs) (.cons (.mk hn hn hn hn) (.empty (.empty
      (.cons (.mk hn hn hn hn) (.cons (.mk hn hs hs hn) .nil))))))
  obtain ⟨t, he, hw⟩ : ∃ t, t = text ∧ r.Written t := by
    refine ⟨_, ?_, Written.mk hm (by decide) ht (by decide) hls⟩
    decide +kernel
  rw [he] at hw
  exact ⟨hr, hw, (parse_reads_written.2 r text hr hw).1, by decide +kernel⟩

end Request
end SharedCanvas
