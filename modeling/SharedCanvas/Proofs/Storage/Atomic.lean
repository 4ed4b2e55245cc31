import SharedCanvas.Proofs.Storage.Draft
import Mathlib.Logic.Relation

namespace SharedCanvas

namespace FileSystem

variable {fs fs' : FileSystem} {path content : Bytes}

theorem insert_insert (fs : FileSystem) (p : Place) (e e' : Entry) :
    (fs.insert p e).insert p e' = fs.insert p e' := by
  simp [insert, erase]

theorem write_of_write (h : fs.write path content = .ok fs') (content' : Bytes) :
    fs'.write path content' = fs.write path content' := by
  obtain ⟨t, hl, hs, hd, rfl⟩ := write_eq_ok_iff.1 h
  have hw : fs.write path content' = .ok (fs.insert t.place (.file content')) :=
    write_eq_ok_iff.2 ⟨t, hl, hs, hd, rfl⟩
  rw [hw, write_eq_ok_iff]
  refine ⟨t, (keepsDirectories_insert hd content).locate hl, hs, ?_, (insert_insert fs _ _ _).symm⟩
  rw [lookup_insert fs _ (ne_nil_of_lookup hd), if_pos rfl]
  nofun

theorem exists_write_of_write (h : fs.write path content = .ok fs') (content' : Bytes) :
    ∃ fs'', fs.write path content' = .ok fs'' := by
  obtain ⟨t, hl, hs, hd, -⟩ := write_eq_ok_iff.1 h
  exact ⟨_, write_eq_ok_iff.2 ⟨t, hl, hs, hd, rfl⟩⟩

end FileSystem

namespace SnapshotFile

/-- How far a save has come. -/
inductive Progress
  | begun
  /-- So many bytes of the picture's text are in the draft. -/
  | drafting (count : Nat)
  | ended (result : Except StoreError Unit)

/-- One step of a save. A save that is interrupted takes no further step. -/
inductive Step (f : SnapshotFile) (s : Snapshot) :
    FileSystem × Progress → FileSystem × Progress → Prop
  /-- The draft is put in place, empty. -/
  | create {fs fs' : FileSystem} (h : fs.write f.draftPath [] = .ok fs') :
      Step f s (fs, .begun) (fs', .drafting 0)
  | extend {fs fs' : FileSystem} {n m : Nat} (hn : n ≤ m)
      (h : fs.write f.draftPath (s.toJson.take m) = .ok fs') :
      Step f s (fs, .drafting n) (fs', .drafting m)
  | publish {fs fs' : FileSystem} {n : Nat} (hn : s.toJson.length ≤ n)
      (h : f.publish fs = .ok fs') : Step f s (fs, .drafting n) (fs', .ended (.ok ()))
  /-- Whatever comes next may fail, for any reason, and nothing is changed by it. -/
  | fail {fs : FileSystem} {p : Progress} (e : StoreError) (hp : ∀ r, p ≠ .ended r) :
      Step f s (fs, p) (fs, .ended (.error e))

def Steps (f : SnapshotFile) (s : Snapshot) (fs : FileSystem) (state : FileSystem × Progress) :
    Prop :=
  Relation.ReflTransGen (Step f s) (fs, .begun) state

/-- What the files can be at each stage. -/
def Reached (f : SnapshotFile) (s : Snapshot) (fs : FileSystem) : FileSystem × Progress → Prop
  | (fs', .begun) => fs' = fs
  | (fs', .drafting n) => fs.write f.draftPath (s.toJson.take n) = .ok fs'
  | (fs', .ended (.ok ())) => f.save s fs = (fs', .ok ())
  | (fs', .ended (.error _)) =>
    fs' = fs ∨ ∃ n, fs.write f.draftPath (s.toJson.take n) = .ok fs'

variable {f : SnapshotFile} {s : Snapshot} {fs fs' : FileSystem} {name : Bytes} {p : Progress}

theorem Reached.step {x y : FileSystem × Progress} (h : Reached f s fs x) (hs : Step f s x y) :
    Reached f s fs y := by
  cases hs with
  | create hw =>
    cases h
    exact hw
  | extend hn hw => exact (FileSystem.write_of_write h _).symm.trans hw
  | publish hn hp =>
    rw [Reached, List.take_of_length_le hn] at h
    exact save_eq_ok_iff.2 ⟨_, h, mapError_eq_ok_iff.1 hp⟩
  | @fail fs' p e hp =>
    cases p with
    | begun => exact .inl h
    | drafting n => exact .inr ⟨n, h⟩
    | ended r => exact absurd rfl (hp r)

theorem Steps.reached {state : FileSystem × Progress} (h : Steps f s fs state) :
    Reached f s fs state := by
  induction h with
  | refl => rfl
  | tail _ hs ih => exact ih.step hs

/-- A save has come to its end or has touched its draft only. -/
theorem Reached.cases (h : Reached f s fs (fs', p)) :
    (p = .ended (.ok ()) ∧ f.save s fs = (fs', .ok ())) ∨
      (p ≠ .ended (.ok ()) ∧ (fs' = fs ∨ ∃ content, fs.write f.draftPath content = .ok fs')) := by
  match p with
  | .begun => exact .inr ⟨nofun, .inl h⟩
  | .drafting n => exact .inr ⟨nofun, .inr ⟨_, h⟩⟩
  | .ended (.ok ()) => exact .inl ⟨rfl, h⟩
  | .ended (.error e) => exact .inr ⟨nofun, h.imp_right fun ⟨n, hw⟩ => ⟨_, hw⟩⟩

theorem steps_save (f : SnapshotFile) (s : Snapshot) (fs : FileSystem) :
    Steps f s fs ((f.save s fs).1, .ended (f.save s fs).2) := by
  unfold save
  split
  · exact .single (.fail _ nofun)
  · rename_i drafted hw
    rw [writeDraft, mapError_eq_ok_iff] at hw
    -- The whole text is written at once to the draft that has just been put in place.
    obtain ⟨created, hc⟩ := FileSystem.exists_write_of_write hw []
    have hd : created.write f.draftPath (s.toJson.take s.toJson.length) = .ok drafted := by
      rw [List.take_length, FileSystem.write_of_write hc, hw]
    have hs : Steps f s fs (drafted, .drafting s.toJson.length) :=
      .tail (.single (.create hc)) (.extend (Nat.zero_le _) hd)
    split
    · exact hs.tail (.fail _ nofun)
    · rename_i hp
      exact hs.tail (.publish (Nat.le_refl _) hp)

variable {content : Bytes} {place : FileSystem.Place}

theorem changed_of_write_draft (hn : Path.fileName? f.path = some name)
    (h : fs.write f.draftPath content = .ok fs') (hp : fs'.lookup place ≠ fs.lookup place) :
    ∃ dir, fs.locate f.draftPath = .ok (some ⟨dir ++ [draftName name], false⟩) ∧
      place = dir ++ [draftName name] := by
  obtain ⟨above, idle, hnames⟩ := Path.exists_names hn
  obtain ⟨t, hl, -, -, rfl⟩ := FileSystem.write_eq_ok_iff.1 h
  obtain ⟨dir, -, ht⟩ := locate_draftPath hnames hl
  cases ht
  refine ⟨dir, hl, ?_⟩
  by_contra hne
  exact hp (FileSystem.lookup_insert_of_ne hne fs _)

/-- What a save that succeeds does. -/
theorem exists_of_save (hn : Path.fileName? f.path = some name) (h : f.save s fs = (fs', .ok ())) :
    ∃ dir, Places f fs dir name ∧
      fs' = ((fs.insert (dir ++ [draftName name]) (.file s.toJson)).erase
        (dir ++ [draftName name])).insert (dir ++ [name]) (.file s.toJson) := by
  obtain ⟨hd, hp⟩ := exists_save_iff.1 ⟨fs', h⟩
  obtain ⟨dir, name', hplaces, hn'⟩ := exists_places hd hp
  cases hn.symm.trans hn'
  obtain ⟨drafted, hw, hr⟩ := save_eq_ok_iff.1 h
  rw [hplaces.write_eq] at hw
  cases hw
  rw [(hplaces.insert s.toJson).rename_eq (lookup_draft_written ..)] at hr
  cases hr
  exact ⟨dir, hplaces, rfl⟩

theorem read_draft_of_save (hn : Path.fileName? f.path = some name)
    (h : f.save s fs = (fs', .ok ())) : fs'.read f.draftPath = .error .notFound := by
  obtain ⟨dir, hplaces, rfl⟩ := exists_of_save hn h
  have hl := ((hplaces.insert s.toJson).moved s.toJson).draft
  simp only [FileSystem.read, hl, lookup_draft_moved]

theorem changed_of_save (hn : Path.fileName? f.path = some name)
    (h : f.save s fs = (fs', .ok ())) (hp : fs'.lookup place ≠ fs.lookup place) :
    ∃ dir, fs.locate f.draftPath = .ok (some ⟨dir ++ [draftName name], false⟩) ∧
      (place = dir ++ [draftName name] ∨
        place = dir ++ [name] ∧ fs.locate f.path = .ok (some ⟨dir ++ [name], false⟩)) := by
  obtain ⟨dir, hplaces, rfl⟩ := exists_of_save hn h
  refine ⟨dir, hplaces.draft, ?_⟩
  by_contra hne
  rw [not_or, not_and'] at hne
  refine hp ?_
  rw [FileSystem.lookup_insert_of_ne (hne.2 hplaces.path), FileSystem.lookup_erase_of_ne hne.1,
    FileSystem.lookup_insert_of_ne hne.1]

/-- A save that reports success has put the whole picture in the file, and its draft is gone. One
that fails, at whatever step and for whatever reason, or that is interrupted leaves the file as it
was. Nothing but the file and its draft is ever touched. -/
theorem save_all_or_nothing (f : SnapshotFile) (s : Snapshot) (fs : FileSystem)
    (hn : Path.fileName? f.path = some name) :
    Steps f s fs ((f.save s fs).1, .ended (f.save s fs).2) ∧
      ∀ fs' p, Steps f s fs (fs', p) →
        (p = .ended (.ok ()) →
          fs'.read f.path = .ok s.toJson ∧ fs'.read f.draftPath = .error .notFound) ∧
        (p ≠ .ended (.ok ()) → f.load fs' = f.load fs) ∧
        ∀ place, fs'.lookup place ≠ fs.lookup place →
          ∃ dir, fs.locate f.draftPath = .ok (some ⟨dir ++ [draftName name], false⟩) ∧
            (place = dir ++ [draftName name] ∨
              p = .ended (.ok ()) ∧ place = dir ++ [name] ∧
                fs.locate f.path = .ok (some ⟨dir ++ [name], false⟩)) := by
  refine ⟨steps_save f s fs, fun fs' p h => ?_⟩
  rcases h.reached.cases with ⟨rfl, hs⟩ | ⟨hne, rfl | ⟨content, hw⟩⟩
  · refine ⟨fun _ => ⟨read_of_save hs, read_draft_of_save hn hs⟩, fun hne => absurd rfl hne, ?_⟩
    intro place hp
    obtain ⟨dir, hl, hplace⟩ := changed_of_save hn hs hp
    exact ⟨dir, hl, hplace.imp_right fun hplace => ⟨rfl, hplace⟩⟩
  · exact ⟨fun he => absurd he hne, fun _ => rfl, fun place hp => absurd rfl hp⟩
  · refine ⟨fun he => absurd he hne, fun _ => load_of_write_draft hn hw, ?_⟩
    intro place hp
    obtain ⟨dir, hl, hplace⟩ := changed_of_write_draft hn hw hp
    exact ⟨dir, hl, .inl hplace⟩

/-- A save over an older picture, once after five bytes of its draft and once at its end. -/
theorem save_all_or_nothing_five_bytes :
    let f : SnapshotFile := ⟨Bytes.ofString "/canvas.json"⟩
    let old : Snapshot := ⟨1, 1, [7]⟩
    let s : Snapshot := ⟨2, 1, [29, 200]⟩
    let fs := FileSystem.empty.install f.path old.toJson
    Path.fileName? f.path = some (Bytes.ofString "canvas.json") ∧
      (∃ fs', Steps f s fs (fs', .drafting 5) ∧ fs'.read f.draftPath = .ok (s.toJson.take 5) ∧
        f.load fs' = f.load fs ∧ f.load fs = .ok (some old)) ∧
      ∃ fs', f.save s fs = (fs', .ok ()) ∧ fs'.read f.path = .ok s.toJson ∧
        fs'.read f.draftPath = .error .notFound := by
  intro f old s fs
  have hn : Path.fileName? f.path = some (Bytes.ofString "canvas.json") := by decide
  have hd : fs.CanHold f.draftPath :=
    ⟨⟨[Bytes.ofString "canvas.json.tmp"], false⟩, by decide +kernel, rfl, by decide +kernel⟩
  have hp : fs.CanHold f.path :=
    ⟨⟨[Bytes.ofString "canvas.json"], false⟩, by decide +kernel, rfl, by decide +kernel⟩
  obtain ⟨hsave, hsteps⟩ := save_all_or_nothing f s fs hn
  refine ⟨hn, ?_, ?_⟩
  · have hcreate : ∃ created, fs.write f.draftPath [] = .ok created :=
      FileSystem.exists_write_iff.2 hd
    obtain ⟨created, hc⟩ := hcreate
    obtain ⟨drafted, hw⟩ := FileSystem.exists_write_of_write hc (s.toJson.take 5)
    have hrun : Steps f s fs (drafted, .drafting 5) :=
      .tail (.single (.create hc))
        (.extend (Nat.zero_le _) ((FileSystem.write_of_write hc _).trans hw))
    refine ⟨drafted, hrun, FileSystem.read_of_write hw, (hsteps _ _ hrun).2.1 nofun, ?_⟩
    decide +kernel
  · have hok : ∃ fs', f.save s fs = (fs', .ok ()) := exists_save_iff.2 ⟨hd, hp⟩
    obtain ⟨fs', h⟩ := hok
    rw [h] at hsave
    exact ⟨fs', h, (hsteps fs' _ hsave).1 rfl⟩

end SnapshotFile
end SharedCanvas
