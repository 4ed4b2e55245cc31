import SharedCanvas.Proofs.Storage.ReadBack
import Mathlib.Data.List.Induction

namespace SharedCanvas

namespace Path

def leading (above : List Bytes) : Bytes := above.flatMap (· ++ [slash])

def trailing (below : List Bytes) : Bytes := below.flatMap (slash :: ·)

theorem trailing_append_cons (above : List Bytes) (name : Bytes) (below : List Bytes) :
    trailing (above ++ name :: below) = slash :: (leading above ++ (name ++ trailing below)) := by
  induction above with
  | nil => simp [trailing, leading]
  | cons s above ih =>
    rw [List.cons_append, trailing, List.flatMap_cons, ← trailing, ih]
    simp [leading]

theorem slash_cons_eq (path : Bytes) : slash :: path = trailing (segments path) := by
  induction path with
  | nil => rfl
  | cons c cs ih =>
    rw [segments]
    split
    · rename_i hc
      rw [beq_iff_eq.1 hc, ih]
      rfl
    · split
      · rename_i s ss hs
        rw [hs] at ih
        have hcs : cs = s ++ trailing ss := List.cons.inj ih |>.2
        rw [hcs]
        rfl
      · rename_i hs
        rw [hs] at ih
        simp [trailing] at ih

theorem slash_not_mem_of_mem_segments {path s : Bytes} (h : s ∈ segments path) : slash ∉ s := by
  induction path generalizing s with
  | nil =>
    rw [segments, List.mem_singleton] at h
    rw [h]
    exact List.not_mem_nil
  | cons c cs ih =>
    rw [segments] at h
    split at h
    · rcases List.mem_cons.1 h with rfl | h
      · exact List.not_mem_nil
      · exact ih h
    · rename_i hc
      have hne : slash ≠ c := fun he => hc (beq_iff_eq.2 he.symm)
      split at h
      · rename_i t ts hs
        rcases List.mem_cons.1 h with rfl | h
        · exact List.not_mem_cons_of_ne_of_not_mem hne (ih (hs ▸ List.mem_cons_self))
        · exact ih (hs ▸ List.mem_cons_of_mem t h)
      · rw [List.mem_singleton.1 h]
        exact List.not_mem_cons_of_ne_of_not_mem hne List.not_mem_nil

theorem segments_ne_nil (path : Bytes) : segments path ≠ [] := by
  intro h
  have hp := slash_cons_eq path
  rw [h] at hp
  simp [trailing] at hp

theorem segments_append (a b : Bytes) : segments (a ++ slash :: b) = segments a ++ segments b := by
  induction a with
  | nil => simp [segments]
  | cons c a ih =>
    obtain ⟨s, ss, hs⟩ := List.exists_cons_of_ne_nil (segments_ne_nil a)
    rw [List.cons_append, segments, segments, ih, hs]
    split <;> rfl

theorem segments_append_of_not_mem {s : Bytes} (h : slash ∉ s) (t : Bytes) :
    segments (s ++ t) = match segments t with
      | piece :: pieces => (s ++ piece) :: pieces
      | [] => [s] := by
  obtain ⟨piece, pieces, ht⟩ := List.exists_cons_of_ne_nil (segments_ne_nil t)
  rw [ht]
  induction s with
  | nil => exact ht
  | cons c s ih =>
    rw [List.mem_cons, not_or] at h
    rw [List.cons_append, segments, if_neg (by simpa using fun he => h.1 he.symm), ih h.2]
    rfl

theorem segments_of_not_mem {s : Bytes} (h : slash ∉ s) : segments s = [s] := by
  simpa [segments] using segments_append_of_not_mem h []

theorem segments_append_slash {s : Bytes} (h : slash ∉ s) (t : Bytes) :
    segments (s ++ slash :: t) = s :: segments t := by
  rw [segments_append, segments_of_not_mem h, List.singleton_append]

theorem segments_leading_append {above : List Bytes} (h : ∀ s ∈ above, slash ∉ s) (t : Bytes) :
    segments (leading above ++ t) = above ++ segments t := by
  induction above with
  | nil => rfl
  | cons s above ih =>
    rw [List.forall_mem_cons] at h
    have he : leading (s :: above) ++ t = s ++ slash :: (leading above ++ t) := by simp [leading]
    rw [he, segments_append_slash h.1, ih h.2, List.cons_append]

/-- The path leads through the directories `above` to `name`, and stays there. -/
structure Names (path : Bytes) (above : List Bytes) (name : Bytes) (idle : List Bytes) : Prop where
  segments_eq : segments path = above ++ name :: idle
  isIdle_of_mem : ∀ s ∈ idle, isIdle s = true
  isIdle_name : isIdle name = false
  ne_up : name ≠ up

theorem exists_names {path name : Bytes} (h : fileName? path = some name) :
    ∃ above idle, Names path above name idle := by
  unfold fileName? at h
  split at h
  · simp at h
  · rename_i s hs
    split at h
    · simp at h
    · rename_i hu
      cases h
      rw [List.getLast?_filter, List.find?_eq_some_iff_append] at hs
      obtain ⟨hn, below, above, hs, hb⟩ := hs
      refine ⟨above.reverse, below.reverse, ?_, ?_, ?_, ?_⟩
      · rw [← List.reverse_reverse (segments path), hs]
        simp
      · intro s hm
        simpa using hb s (List.mem_reverse.1 hm)
      · simpa using hn
      · simpa using hu

variable {path name : Bytes} {above idle : List Bytes}

theorem Names.fileName?_eq (h : Names path above name idle) : fileName? path = some name := by
  have hi : idle.filter (fun s => !isIdle s) = [] := by
    rw [List.filter_eq_nil_iff]
    intro s hs
    simp [h.isIdle_of_mem s hs]
  rw [fileName?, h.segments_eq, List.filter_append,
    List.filter_cons_of_pos (by simp [h.isIdle_name]), hi, List.getLast?_concat]
  simp [h.ne_up]

theorem find?_of_dropWhile {α : Type} {p q : α → Bool} {l r : List α} {a : α}
    (h : l.dropWhile p = a :: r) (hp : ∀ b, p b = true → q b = false) (hq : q a = true) :
    l.find? q = some a := by
  have hnone : (l.takeWhile p).find? q = none := by
    rw [List.find?_eq_none]
    intro b hb
    rw [hp b (List.all_eq_true.1 List.all_takeWhile b hb)]
    exact Bool.false_ne_true
  rw [← List.takeWhile_append_dropWhile (p := p) (l := l), h, List.find?_append, hnone,
    Option.none_or, List.find?_cons_of_pos hq]

theorem exists_fileName?_of_locate {fs : FileSystem} {t : FileSystem.Target}
    (h : fs.locate path = .ok (some t)) : ∃ name, fileName? path = some name := by
  unfold FileSystem.locate at h
  split_ifs at h
  split at h
  · simp at h
  · rename_i name above hs
    have he : name.isEmpty = false := by
      have hd := List.head?_dropWhile_not List.isEmpty (segments path).reverse
      rw [hs] at hd
      exact hd
    split at h
    · simp at h
    · split_ifs at h with hn
      · simp at h
      · rw [Bool.not_eq_true, Bool.or_eq_false_iff] at hn
        have hi : isIdle name = false := by simp only [isIdle, he, hn.1, Bool.or_false]
        have hf := find?_of_dropWhile (q := fun s => !isIdle s) hs
          (fun s hs => by simp [isIdle, hs]) (by simp [hi])
        refine ⟨name, ?_⟩
        rw [fileName?, List.getLast?_filter, hf]
        simp [hn.2]

theorem Names.slash_not_mem (h : Names path above name idle) : slash ∉ name := by
  have hm : name ∈ segments path := by simp [h.segments_eq]
  exact slash_not_mem_of_mem_segments hm

theorem Names.slash_not_mem_of_mem (h : Names path above name idle) : ∀ s ∈ above, slash ∉ s := by
  intro s hs
  have hm : s ∈ segments path := by simp [h.segments_eq, hs]
  exact slash_not_mem_of_mem_segments hm

theorem Names.path_eq (h : Names path above name idle) :
    path = leading above ++ (name ++ trailing idle) := by
  have hp := slash_cons_eq path
  rw [h.segments_eq, trailing_append_cons] at hp
  exact (List.cons.inj hp).2

theorem directory_leading_append {s : Bytes} (hs : slash ∉ s) (above : List Bytes) :
    directory (leading above ++ s) = leading above := by
  have hd : ∀ b ∈ s.reverse, (b != slash) = true := by
    intro b hb
    rw [bne_iff_ne]
    rintro rfl
    exact hs (List.mem_reverse.1 hb)
  rw [directory, List.reverse_append, List.dropWhile_append_of_pos hd]
  -- What is left is empty or ends with a slash.
  induction above using List.reverseRecOn with
  | nil => rfl
  | append_singleton above t _ =>
    have ht : leading (above ++ [t]) = leading above ++ t ++ [slash] := by simp [leading]
    rw [ht, List.reverse_concat, List.dropWhile_cons_of_neg (by simp), ← List.reverse_concat,
      List.reverse_reverse]

theorem length_trailing (below : List Bytes) :
    (trailing below).length = below.reverse.flatten.length + below.reverse.length := by
  induction below with
  | nil => rfl
  | cons s below ih =>
    have hs : trailing (s :: below) = slash :: (s ++ trailing below) := rfl
    simp only [hs, List.length_cons, List.length_append, ih, List.reverse_cons, List.flatten_concat,
      List.length_nil]
    omega

theorem Names.withFileName_eq (h : Names path above name idle) (n : Bytes) :
    withFileName path n = leading above ++ n := by
  have hidle : (segments path).reverse.takeWhile isIdle = idle.reverse := by
    have hi : ∀ s ∈ idle.reverse, isIdle s = true :=
      fun s hs => h.isIdle_of_mem s (List.mem_reverse.1 hs)
    rw [h.segments_eq, List.reverse_append, List.reverse_cons, List.append_assoc,
      List.takeWhile_append_of_pos hi, List.singleton_append,
      List.takeWhile_cons_of_neg (by simp [h.isIdle_name]), List.append_nil]
  have hlen : path.length - (idle.reverse.flatten.length + idle.reverse.length) =
      (leading above ++ name).length := by
    rw [← length_trailing, h.path_eq, ← List.append_assoc, List.length_append, Nat.add_sub_cancel]
  rw [withFileName, h.fileName?_eq]
  dsimp only
  rw [hidle, hlen]
  have htake : path.take (leading above ++ name).length = leading above ++ name := by
    have hp := h.path_eq
    rw [← List.append_assoc] at hp
    rw [hp, List.take_left]
  rw [htake, directory_leading_append h.slash_not_mem]

theorem Names.not_isEmpty (h : Names path above name idle) : name.isEmpty = false := by
  have hn := h.isIdle_name
  simp only [isIdle, Bool.or_eq_false_iff] at hn
  exact hn.1

/-- The slashes at the end of a path are passed over. What comes before them is the name, or a dot
that stays at it. -/
theorem Names.dropWhile_eq (h : Names path above name idle) :
    ∃ last front, (segments path).reverse.dropWhile List.isEmpty = last :: front.reverse ∧
      ((last = name ∧ front = above) ∨
        (last = [dot] ∧ ∃ idle', front = above ++ name :: idle' ∧
          ∀ s ∈ idle', isIdle s = true)) := by
  have hn := h.not_isEmpty
  have hi := h.isIdle_of_mem
  rw [h.segments_eq]
  clear h
  induction idle using List.reverseRecOn with
  | nil =>
    refine ⟨name, above, ?_, .inl ⟨rfl, rfl⟩⟩
    rw [List.reverse_append, List.reverse_singleton, List.singleton_append,
      List.dropWhile_cons_of_neg (by simp [hn])]
  | append_singleton idle s ih =>
    have hs : isIdle s = true := hi s (by simp)
    have hi : ∀ s ∈ idle, isIdle s = true := fun s hs => hi s (List.mem_append_left _ hs)
    rw [← List.cons_append, ← List.append_assoc, List.reverse_concat]
    by_cases he : s.isEmpty = true
    · rw [List.dropWhile_cons_of_pos he]
      exact ih hi
    · refine ⟨s, above ++ name :: idle, List.dropWhile_cons_of_neg he, .inr ⟨?_, idle, rfl, hi⟩⟩
      simpa [isIdle, he] using hs

end Path

namespace FileSystem
open SharedCanvas.Path

variable {fs fs' : FileSystem} {place dir : Place} {path name : Bytes} {above idle : List Bytes}

theorem walk_of_lookup_ne (h : fs.lookup place ≠ some .directory) :
    ∃ e, ∀ names, fs.walk place names = .error e := by
  match hl : fs.lookup place with
  | none => exact ⟨.notFound, fun names => by rw [walk.eq_def, hl]⟩
  | some (.file _) => exact ⟨.notDirectory, fun names => by rw [walk.eq_def, hl]⟩
  | some .directory => exact absurd hl h

theorem walk_cons (h : fs.lookup place = some .directory) (s : Bytes) (ss : List Bytes) :
    fs.walk place (s :: ss) =
      if isIdle s then fs.walk place ss
      else if s == up then fs.walk place.dropLast ss
      else if s.length > maxName then .error .nameTooLong
      else fs.walk (place ++ [s]) ss := by
  rw [walk, h]

theorem walk_append (fs : FileSystem) (place : Place) (names names' : List Bytes) :
    fs.walk place (names ++ names') = (fs.walk place names).bind fun p => fs.walk p names' := by
  induction names generalizing place with
  | nil =>
    by_cases hd : fs.lookup place = some .directory
    · have hw : fs.walk place [] = .ok place := by rw [walk, hd]
      rw [hw]
      rfl
    · obtain ⟨e, he⟩ := walk_of_lookup_ne hd
      rw [he, he]
      rfl
  | cons s ss ih =>
    by_cases hd : fs.lookup place = some .directory
    · rw [List.cons_append, walk_cons hd, walk_cons hd]
      split_ifs
      · exact ih place
      · exact ih place.dropLast
      · rfl
      · exact ih (place ++ [s])
    · obtain ⟨e, he⟩ := walk_of_lookup_ne hd
      rw [he, he]
      rfl

theorem lookup_of_walk_eq_ok {names : List Bytes} (hw : fs.walk place names = .ok dir) :
    fs.lookup dir = some .directory := by
  have h := walk_append fs place names []
  rw [List.append_nil, hw] at h
  exact lookup_of_walk h.symm

theorem walk_idle (h : ∀ s ∈ idle, isIdle s = true) : fs.walk place idle = fs.walk place [] := by
  induction idle with
  | nil => rfl
  | cons s ss ih =>
    rw [List.forall_mem_cons] at h
    by_cases hd : fs.lookup place = some .directory
    · rw [walk_cons hd, if_pos h.1, ih h.2]
    · obtain ⟨e, he⟩ := walk_of_lookup_ne hd
      rw [he, he]

theorem locate_leading_append {n : Bytes} (ha : ∀ s ∈ above, slash ∉ s) (hs : slash ∉ n)
    (hi : isIdle n = false) (hu : n ≠ up) {t : Option Target}
    (hl : fs.locate (leading above ++ n) = .ok t) :
    ∃ dir, fs.walk [] above = .ok dir ∧ t = some ⟨dir ++ [n], false⟩ := by
  have hn : n.isEmpty = false ∧ (n == [dot]) = false := by
    simpa only [isIdle, Bool.or_eq_false_iff] using hi
  have hseg : (segments (leading above ++ n)).reverse.dropWhile List.isEmpty =
      n :: above.reverse := by
    rw [segments_leading_append ha, segments_of_not_mem hs, List.reverse_append,
      List.reverse_singleton, List.singleton_append, List.dropWhile_cons_of_neg (by simp [hn.1])]
  have hlast : ((leading above ++ n).getLast? == some slash) = false := by
    cases hl : n.getLast? with
    | none => simp [List.getLast?_eq_none_iff.1 hl] at hn
    | some b =>
      rw [List.getLast?_append, hl, Option.some_or, beq_eq_false_iff_ne]
      intro he
      cases he
      exact hs (List.mem_of_getLast? hl)
  unfold locate at hl
  split_ifs at hl
  rw [hseg] at hl
  simp only [List.reverse_reverse, hn.2, beq_eq_false_iff_ne.2 hu, hlast, Bool.or_false,
    Bool.false_eq_true, if_false] at hl
  split at hl
  · simp at hl
  · rename_i dir hw
    split_ifs at hl
    cases hl
    exact ⟨dir, hw, rfl⟩

theorem place_of_locate (h : Names path above name idle) (hw : fs.walk [] above = .ok dir)
    {t : Target} (hl : fs.locate path = .ok (some t)) : t.place = dir ++ [name] := by
  obtain ⟨last, front, hd, hf⟩ := h.dropWhile_eq
  unfold locate at hl
  split_ifs at hl
  rw [hd] at hl
  simp only [List.reverse_reverse] at hl
  rcases hf with ⟨rfl, rfl⟩ | ⟨rfl, -⟩
  · rw [hw] at hl
    dsimp only at hl
    split_ifs at hl
    · simp at hl
    · cases hl
      rfl
  · split at hl
    · simp at hl
    · simp at hl

/-- Where a path leads is known from the directory that it leads through and from the entry under
its name there. -/
theorem locate_congr (h : Names path above name idle) (hw : fs.walk [] above = .ok dir)
    (hw' : fs'.walk [] above = .ok dir)
    (he : fs'.lookup (dir ++ [name]) = fs.lookup (dir ++ [name])) :
    fs'.locate path = fs.locate path := by
  obtain ⟨last, front, hd, hf⟩ := h.dropWhile_eq
  have hwalk : fs'.walk [] front = fs.walk [] front := by
    rcases hf with ⟨-, rfl⟩ | ⟨-, idle', rfl, hi⟩
    · rw [hw, hw']
    · -- Both go on to the entry under the name and stay there.
      have hstay : fs'.walk (dir ++ [name]) idle' = fs.walk (dir ++ [name]) idle' := by
        rw [walk_idle hi, walk_idle hi, walk.eq_def, walk.eq_def fs, he]
      rw [walk_append, walk_append, hw, hw']
      simp only [Except.bind]
      rw [walk_cons (lookup_of_walk_eq_ok hw), walk_cons (lookup_of_walk_eq_ok hw'), hstay]
      simp only [h.isIdle_name, beq_eq_false_iff_ne.2 h.ne_up, Bool.false_eq_true, if_false]
  unfold locate
  rw [hd]
  simp only [List.reverse_reverse, hwalk]

theorem read_congr (h : Names path above name idle) (hw : fs.walk [] above = .ok dir)
    (hw' : fs'.walk [] above = .ok dir)
    (he : fs'.lookup (dir ++ [name]) = fs.lookup (dir ++ [name])) :
    fs'.read path = fs.read path := by
  unfold read
  rw [locate_congr h hw hw' he]
  split
  · rfl
  · rfl
  · rename_i t hl
    rw [place_of_locate h hw hl, he]

end FileSystem

namespace SnapshotFile
open SharedCanvas.Path

variable {f : SnapshotFile} {fs fs' : FileSystem} {name content : Bytes} {above idle : List Bytes}

def draftName (name : Bytes) : Bytes := name ++ Bytes.ofString ".tmp"

theorem draftName_ne (name : Bytes) : draftName name ≠ name := by
  intro h
  have hl := congrArg List.length h
  simp only [draftName, List.length_append] at hl
  have ht : (Bytes.ofString ".tmp").length = 4 := by decide
  omega

theorem draft_place_ne (dir : FileSystem.Place) (name : Bytes) :
    dir ++ [draftName name] ≠ dir ++ [name] := by
  simpa using draftName_ne name

theorem draftPath_eq (h : Names f.path above name idle) :
    f.draftPath = leading above ++ draftName name := by
  rw [draftPath, h.fileName?_eq, h.withFileName_eq]
  rfl

/-- The draft stands in the directory that the path leads through. -/
theorem locate_draftPath (h : Names f.path above name idle) {t : Option FileSystem.Target}
    (hl : fs.locate f.draftPath = .ok t) :
    ∃ dir, fs.walk [] above = .ok dir ∧ t = some ⟨dir ++ [draftName name], false⟩ := by
  have hlen : 4 ≤ (draftName name).length := by
    have ht : (Bytes.ofString ".tmp").length = 4 := by decide
    rw [draftName, List.length_append, ht]
    exact Nat.le_add_left 4 _
  rw [draftPath_eq h] at hl
  refine FileSystem.locate_leading_append h.slash_not_mem_of_mem ?_ ?_ ?_ hl
  · rw [draftName, List.mem_append, not_or]
    exact ⟨h.slash_not_mem, by decide⟩
  · simp only [isIdle, Bool.or_eq_false_iff, List.isEmpty_eq_false_iff, beq_eq_false_iff_ne]
    constructor <;> intro he <;> simp [he] at hlen
  · intro he
    simp [he, up] at hlen

theorem read_of_write_draft (hn : fileName? f.path = some name)
    (h : fs.write f.draftPath content = .ok fs') : fs'.read f.path = fs.read f.path := by
  obtain ⟨above, idle, hp⟩ := exists_names hn
  obtain ⟨t, hl, -, hd, rfl⟩ := FileSystem.write_eq_ok_iff.1 h
  obtain ⟨dir, hw, ht⟩ := locate_draftPath hp hl
  cases ht
  refine FileSystem.read_congr hp hw ((FileSystem.keepsDirectories_insert hd content).walk hw) ?_
  exact FileSystem.lookup_insert_of_ne (draft_place_ne dir name).symm fs _

theorem load_of_write_draft (hn : fileName? f.path = some name)
    (h : fs.write f.draftPath content = .ok fs') : f.load fs' = f.load fs := by
  rw [load, load, read_of_write_draft hn h]

/-- The places of the file and of its draft, at each of which a file can be put. -/
structure Places (f : SnapshotFile) (fs : FileSystem) (dir : FileSystem.Place) (name : Bytes) :
    Prop where
  draft : fs.locate f.draftPath = .ok (some ⟨dir ++ [draftName name], false⟩)
  path : fs.locate f.path = .ok (some ⟨dir ++ [name], false⟩)
  draft_free : fs.lookup (dir ++ [draftName name]) ≠ some .directory
  path_free : fs.lookup (dir ++ [name]) ≠ some .directory

theorem exists_places (hd : fs.CanHold f.draftPath) (hp : fs.CanHold f.path) :
    ∃ dir name, Places f fs dir name ∧ fileName? f.path = some name := by
  obtain ⟨⟨p, _⟩, hp, rfl, hpf⟩ := hp
  obtain ⟨name, hn⟩ := exists_fileName?_of_locate hp
  obtain ⟨above, idle, hnames⟩ := exists_names hn
  obtain ⟨t, hd, -, hdf⟩ := hd
  obtain ⟨dir, hw, ht⟩ := locate_draftPath hnames hd
  cases ht
  obtain rfl : p = dir ++ [name] := FileSystem.place_of_locate hnames hw hp
  exact ⟨dir, name, ⟨hd, hp, hdf, hpf⟩, hn⟩

section
variable {dir : FileSystem.Place}

theorem Places.of_sameDirectories (h : Places f fs dir name) (hk : fs.SameDirectories fs') :
    Places f fs' dir name where
  draft := hk.1.locate h.draft
  path := hk.1.locate h.path
  draft_free := fun hd => h.draft_free (hk.2 _ hd)
  path_free := fun hd => h.path_free (hk.2 _ hd)

theorem Places.write_eq (h : Places f fs dir name) (content : Bytes) :
    fs.write f.draftPath content = .ok (fs.insert (dir ++ [draftName name]) (.file content)) :=
  FileSystem.write_eq_ok_iff.2 ⟨_, h.draft, rfl, h.draft_free, rfl⟩

theorem Places.rename_eq (h : Places f fs dir name)
    (hd : fs.lookup (dir ++ [draftName name]) = some (.file content)) :
    fs.rename f.draftPath f.path =
      .ok ((fs.erase (dir ++ [draftName name])).insert (dir ++ [name]) (.file content)) :=
  FileSystem.rename_eq_ok_iff.2 ⟨_, _, _, h.draft, h.path, hd, rfl, rfl, h.path_free, rfl⟩

theorem Places.rename_of_none (h : Places f fs dir name)
    (hd : fs.lookup (dir ++ [draftName name]) = none) :
    fs.rename f.draftPath f.path = .error .notFound := by
  simp only [FileSystem.rename, h.draft, h.path, hd]

theorem Places.insert (h : Places f fs dir name) (content : Bytes) :
    Places f (fs.insert (dir ++ [draftName name]) (.file content)) dir name :=
  h.of_sameDirectories (FileSystem.sameDirectories_insert h.draft_free content)

section
variable (dir : FileSystem.Place) (name : Bytes) (fs : FileSystem)

theorem lookup_draft_written (content : Bytes) :
    (fs.insert (dir ++ [draftName name]) (.file content)).lookup (dir ++ [draftName name]) =
      some (.file content) := by
  rw [FileSystem.lookup_insert fs _ (by simp), if_pos rfl]

theorem lookup_path_written (content : Bytes) :
    (fs.insert (dir ++ [draftName name]) (.file content)).lookup (dir ++ [name]) =
      fs.lookup (dir ++ [name]) :=
  FileSystem.lookup_insert_of_ne (draft_place_ne dir name).symm fs _

theorem lookup_draft_moved (entry : Entry) :
    ((fs.erase (dir ++ [draftName name])).insert (dir ++ [name]) entry).lookup
      (dir ++ [draftName name]) = none := by
  rw [FileSystem.lookup_insert_of_ne (draft_place_ne dir name),
    FileSystem.lookup_erase fs (by simp), if_pos rfl]

theorem lookup_path_moved (entry : Entry) :
    ((fs.erase (dir ++ [draftName name])).insert (dir ++ [name]) entry).lookup (dir ++ [name]) =
      some entry := by
  rw [FileSystem.lookup_insert _ _ (by simp), if_pos rfl]

end

theorem Places.moved (h : Places f fs dir name) (content : Bytes) :
    Places f ((fs.erase (dir ++ [draftName name])).insert (dir ++ [name]) (.file content)) dir
      name :=
  h.of_sameDirectories (FileSystem.sameDirectories_moved h.draft_free h.path_free content)

end

end SnapshotFile
end SharedCanvas
